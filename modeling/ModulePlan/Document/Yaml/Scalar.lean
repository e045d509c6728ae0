/-
The texts of YAML scalars: quoted, plain and block scalars.

Within a scalar of several lines a single line end becomes a space, and of several line ends
all but the first are kept; the lines of a literal block scalar are kept as they are.  Texts
are gathered with the last character first.
-/

import ModulePlan.Document.Yaml.Passage
import ModulePlan.Text.Digit
import ModulePlan.Text.Surrogate

namespace ModulePlan.Document.Yaml

/-- Line ends with spacing around them, up to the next character: the values of the line ends
behind those already kept, or nothing where the document ends or another one begins. -/
def breaksFrom (isSpacing : Char → Bool) (atLineStart : Bool) (kept : List Char) :
    Passage → Except Refusal (Option (List Char) × Passage)
  | .ended place => .ok (some kept.reverse, .ended place)
  | .blocked refusal => .error refusal
  | .more spot left rest => do
    let here := Passage.more spot left rest
    let stops ← if atLineStart then here.isBoundary else pure false
    if stops then return (none, here)
    else if isSpacing spot.char then breaksFrom isSpacing false kept rest
    else if isBreak spot.char then breaksFrom isSpacing true (breakValue spot.char :: kept) rest
    else return (some kept.reverse, here)

def breaks (isSpacing : Char → Bool) (passage : Passage) :
    Except Refusal (Option (List Char) × Passage) :=
  breaksFrom isSpacing true [] passage

def folded (first : Char) (others : List Char) : List Char :=
  if first ≠ '\n' then first :: others
  else if others = [] then [' ']
  else others

/-! ### Quoted scalars -/

def escapedChar? (c : Char) : Option Char :=
  [('0', '\x00'), ('a', '\x07'), ('b', '\x08'), ('t', '\t'), ('\t', '\t'), ('n', '\n'),
    ('v', '\x0b'), ('f', '\x0c'), ('r', '\r'), ('e', '\x1b'), (' ', ' '), ('"', '"'),
    ('\\', '\\'), ('/', '/'), ('N', '\u0085'), ('_', '\u00a0'), ('L', '\u2028'),
    ('P', '\u2029')].lookup c

/-- The number of hexadecimal digits behind a letter that begins a numbered character. -/
def numberWidth? (c : Char) : Option Nat :=
  [('x', 2), ('u', 4), ('U', 8)].lookup c

/-- A number of so many hexadecimal digits, behind the digits of `number`. -/
def hexNumber (number : Nat) : Nat → Passage → Except Refusal (Nat × Passage)
  | 0, passage => .ok (number, passage)
  | width + 1, passage => do
    let c ← passage.next
    if Text.isHexDigit c then
      hexNumber (16 * number + Text.hexDigitValue c) width passage.behind
    else .error .malformed

def numberedChar (number : Nat) : Except Refusal Char :=
  if number < 0x110000 then .ok (Text.ofNumber number)
  else if number < 0x80000000 then .error (.fault (.value .noCharacter))
  else .error (.fault (.kind .numberTooLarge))

def escape (passage : Passage) : Except Refusal (List Char × Passage) := do
  let c ← passage.next
  match escapedChar? c, numberWidth? c with
  | some written, _ => return ([written], passage.behind)
  | none, some width =>
    let (number, rest) ← hexNumber 0 width passage.behind
    return ([← numberedChar number], rest)
  | none, none =>
    if isBreak c then
      match ← breaks isSpacing passage.behind with
      | (some kept, rest) => return (kept, rest)
      | (none, _) => .error .malformed
    else .error .malformed

/-- Spacing inside quotes: kept as it is within a line, and folded over line ends. -/
def quotedSpacing (passage : Passage) : Except Refusal (List Char × Passage) := do
  let (spacing, rest) ← passage.run isSpacing
  let c ← rest.next
  if c = endMark then .error .malformed
  else if isBreak c then
    match ← breaks isSpacing rest.behind with
    | (some others, after) => return (folded (breakValue c) others, after)
    | (none, _) => .error .malformed
  else return (spacing, rest)

def quotedFrom (quote : Char) : Nat → List Char → Passage →
    Except Refusal (List Char × Passage)
  | 0, _, _ => .error .malformed
  | fuel + 1, done, passage => do
    let c ← passage.next
    if c = quote then
      let rest ← passage.pass 1
      let d ← rest.next
      if quote = '\'' && d = '\'' then quotedFrom quote fuel (c :: done) rest.behind
      else return (done.reverse, rest)
    else if c = '\\' && quote = '"' then
      let (written, rest) ← escape passage.behind
      quotedFrom quote fuel (written.reverse ++ done) rest
    else if isGap c then
      let (spacing, rest) ← quotedSpacing passage
      quotedFrom quote fuel (spacing.reverse ++ done) rest
    else quotedFrom quote fuel (c :: done) passage.behind

def quotedScalar (passage : Passage) : Except Refusal (List Char × Passage) := do
  let quote ← passage.next
  quotedFrom quote (passage.left + 1) [] passage.behind

/-! ### Plain scalars -/

def isFlowMark (c : Char) : Bool :=
  [',', '[', ']', '\x7b', '\x7d'].contains c

/-- The characters of a plain scalar up to the next gap, behind those already read.  A colon
before a gap ends it, and inside brackets so do the marks of lists and mappings. -/
def plainRunFrom (inFlow : Bool) (done : List Char) : Passage →
    Except Refusal (List Char × Passage)
  | .ended place => .ok (done.reverse, .ended place)
  | .blocked refusal => .error refusal
  | .more spot left rest => do
    let c := spot.char
    let here := Passage.more spot left rest
    if isGap c || (inFlow && (isFlowMark c || c = '?')) then return (done.reverse, here)
    else if c = ':' then
      let d ← rest.next
      if isGap d || (inFlow && isFlowMark d) then return (done.reverse, here)
      else plainRunFrom inFlow (c :: done) rest
    else plainRunFrom inFlow (c :: done) rest

/-- A run of a plain scalar, which does not begin a comment. -/
def plainRun (inFlow : Bool) (passage : Passage) : Except Refusal (List Char × Passage) := do
  if (← passage.next) = '#' then return ([], passage) else plainRunFrom inFlow [] passage

structure PlainPart where
  text : List Char
  broken : Bool

/-- The spacing after a run of a plain scalar.  It is empty where the document ends. -/
def plainSpacing (passage : Passage) : Except Refusal (PlainPart × Passage) := do
  let (spaces, rest) ← passage.run (· = ' ')
  let c ← rest.next
  if isBreak c then
    match ← breaks (· = ' ') rest.behind with
    | (some others, after) => return (⟨folded (breakValue c) others, true⟩, after)
    | (none, after) => return (⟨[], true⟩, after)
  else return (⟨spaces, false⟩, rest)

/-- A plain scalar behind the characters already read and the spacing after them.  Outside
brackets its further lines are indented to a column at least. -/
def plainFrom (inFlow : Bool) (indentation : Nat) :
    Nat → List Char → PlainPart → Passage → Except Refusal (PlainPart × Passage)
  | 0, done, spacing, passage => .ok (⟨done.reverse, spacing.broken⟩, passage)
  | fuel + 1, done, spacing, passage => do
    let (text, rest) ← plainRun inFlow passage
    if text = [] then return (⟨done.reverse, spacing.broken⟩, passage)
    else
      let (next, after) ← plainSpacing rest
      let done := text.reverse ++ (spacing.text.reverse ++ done)
      if next.text = [] || (!inFlow && after.column < indentation) then
        return (⟨done.reverse, next.broken⟩, after)
      else plainFrom inFlow indentation fuel done next after

def plainScalar (inFlow : Bool) (indentation : Nat) (passage : Passage) :
    Except Refusal (PlainPart × Passage) :=
  plainFrom inFlow indentation (passage.left + 1) [] ⟨[], false⟩ passage

/-! ### Block scalars -/

/-- What becomes of the line ends behind a block scalar: one is kept, none, or all. -/
inductive Chomping where
  | clip
  | strip
  | keep
deriving DecidableEq

structure BlockHeader where
  chomping : Chomping := .clip
  indentation : Option Nat := none

def chomping? (c : Char) : Option Chomping :=
  if c = '+' then some .keep else if c = '-' then some .strip else none

def BlockHeader.readSign (header : BlockHeader) (passage : Passage) :
    Except Refusal (BlockHeader × Passage) := do
  match chomping? (← passage.next) with
  | some chomping => return ({ header with chomping := chomping }, passage.behind)
  | none => return (header, passage)

def BlockHeader.readDigit (header : BlockHeader) (passage : Passage) :
    Except Refusal (BlockHeader × Passage) := do
  let c ← passage.next
  if c = '0' then .error .malformed
  else if Text.isAsciiDigit c then
    return ({ header with indentation := some (c.toNat - 48) }, passage.behind)
  else return (header, passage)

/-- The header of a block scalar: a sign and a digit from one to nine, in either order, both
of which may be missing. -/
def blockHeader (passage : Passage) : Except Refusal (BlockHeader × Passage) := do
  let first ← passage.next
  let (header, rest) ← BlockHeader.readSign {} passage
  let (header, rest) ← header.readDigit rest
  let (header, rest) ←
    if (chomping? first).isNone && header.indentation.isSome then header.readSign rest
    else pure (header, rest)
  if isSpaceOrEnd (← rest.next) then return (header, rest) else .error .malformed

/-- The empty lines before a block scalar: their line ends behind those already kept, and the
greatest column that spaces reach. -/
def leadingLines (deepest : Nat) (kept : List Char) : Passage →
    Except Refusal ((List Char × Nat) × Passage)
  | .ended place => .ok ((kept.reverse, deepest), .ended place)
  | .blocked refusal => .error refusal
  | .more spot left rest =>
    if spot.char = ' ' then leadingLines (max deepest (spot.place.column + 1)) kept rest
    else if isBreak spot.char then leadingLines deepest (breakValue spot.char :: kept) rest
    else .ok ((kept.reverse, deepest), .more spot left rest)

/-- The line ends behind those already kept, up to the next line that reaches an indentation
or holds something. -/
def emptyLines (indentation : Nat) (kept : List Char) : Passage →
    Except Refusal (List Char × Passage)
  | .ended place => .ok (kept.reverse, .ended place)
  | .blocked refusal => .error refusal
  | .more spot left rest =>
    if spot.char = ' ' && spot.place.column < indentation then emptyLines indentation kept rest
    else if isBreak spot.char then emptyLines indentation (breakValue spot.char :: kept) rest
    else .ok (kept.reverse, .more spot left rest)

def isBlockLine (indentation : Nat) (passage : Passage) : Except Refusal Bool := do
  return passage.column = indentation && (← passage.next) ≠ endMark

/-- The end of a line, as a part of a block scalar's text, and what follows it. -/
def lineEnd (passage : Passage) : Except Refusal (List Char × Passage) := do
  let c ← passage.next
  if isBreak c then return ([breakValue c], ← passage.pass 1) else return ([], passage)

def chomped (chomping : Chomping) (last others : List Char) : List Char :=
  match chomping with
  | .strip => []
  | .clip => last
  | .keep => last ++ others

/-- The lines of a block scalar, the first of which begins here, behind what is already
read. -/
def blockFrom (isFolded : Bool) (chomping : Chomping) (indentation : Nat) :
    Nat → List Char → Passage → Except Refusal (List Char × Passage)
  | 0, done, passage => .ok (done.reverse, passage)
  | fuel + 1, done, passage => do
    let first ← passage.next
    let (line, rest) ← passage.run (!isBreakOrEnd ·)
    let (last, start) ← lineEnd rest
    let (others, after) ← emptyLines indentation [] start
    let done := line.reverse ++ done
    if ← isBlockLine indentation after then
      let folds := isFolded && last = ['\n'] && !isSpacing first && !isSpacing (← after.next)
      let joint := if !folds then last else if others = [] then [' '] else []
      blockFrom isFolded chomping indentation fuel ((joint ++ others).reverse ++ done) after
    else return (done.reverse ++ chomped chomping last others, after)

/-- The block scalar whose mark stands here, in a block that is indented to a column at
least.  Without a number in its header its first line says how far it is indented. -/
def blockScalar (least : Nat) (passage : Passage) : Except Refusal (List Char × Passage) := do
  let mark ← passage.next
  let (header, rest) ← blockHeader (← passage.pass 1)
  let start ← rest.restOfLine
  let ((others, indentation), after) ←
    match header.indentation with
    | some more => do
      let indentation := least + more - 1
      let (others, after) ← emptyLines indentation [] start
      pure ((others, indentation), after)
    | none => do
      let ((others, deepest), after) ← leadingLines 0 [] start
      pure ((others, max least deepest), after)
  if ← isBlockLine indentation after then
    blockFrom (mark = '>') header.chomping indentation (after.left + 1) others.reverse after
  else return (chomped header.chomping [] others, after)

end ModulePlan.Document.Yaml
