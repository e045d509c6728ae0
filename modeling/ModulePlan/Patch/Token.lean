/-
Tokens of patch files.

A patch file is cut into words and four marks.  White space and comments separate words
and are otherwise left out: a comment runs from two slashes to the end of the line, or
from a slash and a star to the first star and slash after it.  The tokens are read from
the front, so a comment that is never closed is met only behind all tokens before it.
-/

import ModulePlan.Text.Blank

namespace ModulePlan.Patch

inductive Mark where
  | leftBrace
  | rightBrace
  | semicolon
  | comma
deriving DecidableEq

def Mark.char : Mark → Char
  | .leftBrace => '{'
  | .rightBrace => '}'
  | .semicolon => ';'
  | .comma => ','

def Mark.ofChar? (c : Char) : Option Mark :=
  if c = '{' then some .leftBrace
  else if c = '}' then some .rightBrace
  else if c = ';' then some .semicolon
  else if c = ',' then some .comma
  else none

inductive Token where
  | mark (sign : Mark)
  | word (text : String)
deriving DecidableEq

def Token.text : Token → String
  | .mark sign => String.singleton sign.char
  | .word text => text

/-- The tokens of a text with the lines they begin on, down to the end of the text or to
a comment without an end. -/
inductive Tokens where
  | endOfFile (line : Nat)
  | openComment (line : Nat)
  | cons (token : Token) (line : Nat) (rest : Tokens)
deriving DecidableEq

namespace Tokens

def toList : Tokens → List (Token × Nat)
  | .endOfFile _ | .openComment _ => []
  | .cons token line rest => (token, line) :: rest.toList

def length : Tokens → Nat
  | .endOfFile _ | .openComment _ => 0
  | .cons _ _ rest => rest.length + 1

def opensComment (c : Char) (rest : List Char) : Bool :=
  c = '/' && (rest.head? = some '/' || rest.head? = some '*')

def endsWord (c : Char) (rest : List Char) : Bool :=
  Text.isBlank c || (Mark.ofChar? c).isSome || opensComment c rest

def spanWord : List Char → List Char × List Char
  | [] => ([], [])
  | c :: rest =>
    if endsWord c rest then ([], c :: rest)
    else
      let (word, after) := spanWord rest
      (c :: word, after)

/-- The number of line feeds in a comment and the text behind its end; nothing for a comment
that is not closed. -/
def closeComment : List Char → Option (Nat × List Char)
  | [] => none
  | c :: rest =>
    if c = '*' && rest.head? = some '/' then some (0, rest.tail)
    else
      (closeComment rest).map fun (lines, after) => (if c = '\n' then lines + 1 else lines, after)

theorem length_spanWord_le (cs : List Char) : (spanWord cs).2.length ≤ cs.length := by
  induction cs with
  | nil => simp [spanWord]
  | cons c rest ih =>
    unfold spanWord
    by_cases ends : endsWord c rest
    · simp [ends]
    · simp only [ends, Bool.false_eq_true, if_false, List.length_cons]
      omega

theorem length_of_closeComment {cs after : List Char} {lines : Nat}
    (closed : closeComment cs = some (lines, after)) : after.length ≤ cs.length := by
  induction cs generalizing lines with
  | nil => simp [closeComment] at closed
  | cons c rest ih =>
    unfold closeComment at closed
    split at closed
    · cases closed
      rw [List.length_tail, List.length_cons]
      omega
    · cases inner : closeComment rest with
      | none => simp [inner] at closed
      | some found =>
        obtain ⟨count, tail⟩ := found
        simp only [inner, Option.map_some, Option.some.injEq, Prod.mk.injEq] at closed
        obtain ⟨_, rfl⟩ := closed
        have shorter := ih inner
        rw [List.length_cons]
        omega

theorem length_dropWhile_le (test : Char → Bool) (cs : List Char) :
    (cs.dropWhile test).length ≤ cs.length :=
  (List.dropWhile_sublist test).length_le

def scan (line : Nat) : List Char → Tokens
  | [] => .endOfFile line
  | c :: rest =>
    if c = '\n' then scan (line + 1) rest
    else if Text.isBlank c then scan line rest
    else if c = '/' && rest.head? = some '/' then scan line (rest.dropWhile (· ≠ '\n'))
    else if c = '/' && rest.head? = some '*' then
      match _closed : closeComment rest.tail with
      | none => .openComment line
      | some (lines, after) => scan (line + lines) after
    else
      match Mark.ofChar? c with
      | some sign => .cons (.mark sign) line (scan line rest)
      | none =>
        let word := spanWord rest
        .cons (.word (String.ofList (c :: word.1))) line (scan line word.2)
termination_by cs => cs.length
decreasing_by
  all_goals simp only [List.length_cons]
  · omega
  · omega
  · have := length_dropWhile_le (· ≠ '\n') rest
    omega
  · have shorter := length_of_closeComment _closed
    rw [List.length_tail] at shorter
    omega
  · omega
  · have := length_spanWord_le rest
    omega

def ofText (text : String) : Tokens :=
  scan 1 text.toList

end Tokens

end ModulePlan.Patch
