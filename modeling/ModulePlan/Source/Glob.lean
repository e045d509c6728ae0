/-
Glob patterns over relative paths.

A star stands for any text, slashes included, a question mark for any one character, and
brackets for one of the characters they list.  In brackets, an exclamation mark at the
beginning takes the other characters, a closing bracket at the beginning is listed, and a
hyphen between two characters means all from the first to the second.  A bracket that is
never closed means itself.
-/

import ModulePlan.Text.Fields

namespace ModulePlan.Glob

inductive Piece where
  | star
  | anyChar
  | char (c : Char)
  /-- One of some characters or ranges of characters, or none of them. -/
  | oneOf (negated : Bool) (chars : List Char) (ranges : List (Char × Char))
deriving DecidableEq

def takeLead (c : Char) : List Char → List Char × List Char
  | [] => ([], [])
  | d :: rest => if d = c then ([c], rest) else ([], d :: rest)

def bracket? (cs : List Char) : Option (List Char × List Char) :=
  let mark := takeLead '!' cs
  let first := takeLead ']' mark.2
  (Text.cutAt? ']' first.2).map fun (listed, rest) => (mark.1 ++ first.1 ++ listed, rest)

/-- The place of the first hyphen that has at least so many characters before it. -/
def hyphenFrom? (skip : Nat) (cs : List Char) : Option Nat :=
  let place := ((cs.drop skip).takeWhile (· ≠ '-')).length + skip
  if place < cs.length then some place else none

/-- The text in brackets cut at the hyphens that make ranges.  A hyphen makes one only with a
character before it that is not the end of another range; at the end it is a character. -/
def chunks (skip : Nat) (cs : List Char) : List (List Char) :=
  match _found : hyphenFrom? skip cs with
  | none => [cs]
  | some place =>
    match chunks 2 (cs.drop (place + 1)) with
    | [[]] => [cs.take place ++ ['-']]
    | others => cs.take place :: others
termination_by cs.length
decreasing_by
  have inside : place < cs.length := by
    simp only [hyphenFrom?] at _found
    split at _found
    · cases _found
      assumption
    · cases _found
  rw [List.length_drop]
  omega

/-- Joins chunks that a range from a greater to a smaller character divides: such a range
holds no character. -/
def dropEmptyRange (chunk : List Char) : List (List Char) → List (List Char)
  | [] => [chunk]
  | next :: rest =>
    match chunk.getLast?, next.head? with
    | some low, some high =>
      if high < low then (chunk.dropLast ++ next.tail) :: rest else chunk :: next :: rest
    | _, _ => chunk :: next :: rest

/-- The ranges between chunks, from the last character of one to the first of the next. -/
def rangesBetween : List (List Char) → List (Char × Char)
  | first :: second :: rest =>
    match first.getLast?, second.head? with
    | some low, some high => (low, high) :: rangesBetween (second :: rest)
    | _, _ => rangesBetween (second :: rest)
  | _ => []

def Piece.ofBracket (listed : List Char) : Piece :=
  let skip := if listed.head? = some '!' then 2 else 1
  let parts := (chunks skip listed).foldr dropEmptyRange []
  match parts with
  | [['!']] => .anyChar
  | ('!' :: first) :: rest => .oneOf true (first ++ rest.flatten) (rangesBetween (first :: rest))
  | _ => .oneOf false parts.flatten (rangesBetween parts)

theorem length_of_cutAt {separator : Char} {cs before after : List Char}
    (cut : Text.cutAt? separator cs = some (before, after)) : after.length < cs.length := by
  induction cs generalizing before with
  | nil => simp [Text.cutAt?] at cut
  | cons c rest ih =>
    unfold Text.cutAt? at cut
    split at cut
    · cases cut
      simp
    · obtain ⟨⟨start, tail⟩, inner, same⟩ := Option.map_eq_some_iff.mp cut
      cases same
      have := ih inner
      simp only [List.length_cons]
      omega

theorem length_takeLead_le (c : Char) (cs : List Char) :
    (takeLead c cs).2.length ≤ cs.length := by
  cases cs with
  | nil => simp [takeLead]
  | cons d rest =>
    simp only [takeLead]
    split <;> simp

theorem length_of_bracket {cs listed rest : List Char}
    (closed : bracket? cs = some (listed, rest)) : rest.length < cs.length := by
  obtain ⟨⟨before, after⟩, cut, same⟩ := Option.map_eq_some_iff.mp closed
  cases same
  have shorter := length_of_cutAt cut
  have first := length_takeLead_le ']' (takeLead '!' cs).2
  have mark := length_takeLead_le '!' cs
  omega

def parse (cs : List Char) : List Piece :=
  match cs with
  | [] => []
  | '*' :: rest => .star :: parse rest
  | '?' :: rest => .anyChar :: parse rest
  | '[' :: rest =>
    match _closed : bracket? rest with
    | some (listed, after) => .ofBracket listed :: parse after
    | none => .char '[' :: parse rest
  | c :: rest => .char c :: parse rest
termination_by cs.length
decreasing_by
  all_goals simp only [List.length_cons]
  · omega
  · omega
  · have := length_of_bracket _closed
    omega
  · omega
  · omega

def Piece.accepts (c : Char) : Piece → Bool
  | .star | .anyChar => true
  | .char d => c = d
  | .oneOf negated chars ranges =>
    negated != (chars.contains c || ranges.any fun range => range.1 ≤ c && c ≤ range.2)

/-- Which ends of a text, the longest first, fit one more part before a pattern, given which of
them fit the pattern. -/
def fitsBefore (cs : List Char) (piece : Piece) (fitting : List Bool) : List Bool :=
  match piece with
  | .star => fitting.foldr (fun fits later => (fits || later.headD false) :: later) []
  | _ => List.zipWith (fun c later => piece.accepts c && later) cs fitting.tail ++ [false]

/-- Which ends of a text, the longest first, fit a pattern.  The empty one alone fits the pattern
without parts. -/
def fittingEnds (pieces : List Piece) (cs : List Char) : List Bool :=
  pieces.foldr (fitsBefore cs) (cs.map (fun _ => false) ++ [true])

def fits (pieces : List Piece) (cs : List Char) : Bool :=
  (fittingEnds pieces cs).headD false

def accepts (pattern text : String) : Bool :=
  fits (parse pattern.toList) text.toList

end ModulePlan.Glob
