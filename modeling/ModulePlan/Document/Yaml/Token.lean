/-
Tokens of YAML documents.

A token is a mark, a scalar, or what stands with a node: an anchor, a tag or an alias.  The
indentation of blocks is told by marks of its own, which stand where a block begins and where
it ends.  Tokens come one after another, up to the end of the text or up to the place where
the text is refused.
-/

import ModulePlan.Document.Yaml.Scalar
import ModulePlan.Text.Utf8

namespace ModulePlan.Document.Yaml

inductive Directive where
  | version (major : Nat)
  | tagHandle (handle leader : String)
  | other

structure WrittenTag where
  handle : Option String
  suffix : String

inductive Token where
  | directive (directive : Directive)
  | documentStart
  | documentEnd
  | sequenceStart
  | mappingStart
  | blockEnd
  | flowSequenceStart
  | flowSequenceEnd
  | flowMappingStart
  | flowMappingEnd
  | entry
  | comma
  | key
  | value
  | alias (name : String)
  | anchor (name : String)
  | tag (tag : WrittenTag)
  | scalar (text : List Char) (isPlain : Bool)

inductive Tokens where
  | more (token : Token) (rest : Tokens)
  | ended
  | refused (refusal : Refusal)

namespace Tokens

def prepend (tokens : List Token) (rest : Tokens) : Tokens :=
  tokens.foldl (fun rest token => .more token rest) rest

def countFrom (count : Nat) : Tokens → Nat
  | .more _ rest => countFrom (count + 1) rest
  | _ => count

end Tokens

/-! ### Anchors, tags and directives -/

def anchorName (passage : Passage) : Except Refusal (String × Passage) := do
  let (name, rest) ← passage.behind.run isNameChar
  let c ← rest.next
  let mayFollow := isGap c || ['?', ':', ',', ']', '\x7d', '%', '@', '\x60'].contains c
  if name = [] || !mayFollow then .error .malformed else return (String.ofList name, rest)

def tagHandle (passage : Passage) : Except Refusal (String × Passage) := do
  if (← passage.next) ≠ '!' then .error .malformed
  else
    let rest := passage.behind
    if (← rest.next) = ' ' then return ("!", rest)
    else
      let (name, after) ← rest.run isNameChar
      if (← after.next) = '!' then
        return (String.ofList ('!' :: name ++ ['!']), ← after.pass 1)
      else .error .malformed

/-- The bytes that percent signs and pairs of hexadecimal digits stand for, behind those
already read. -/
def percentBytes : Nat → List UInt8 → Passage → Except Refusal (List UInt8 × Passage)
  | 0, done, passage => .ok (done.reverse, passage)
  | fuel + 1, done, passage => do
    if (← passage.next) = '%' then
      let (number, rest) ← hexNumber 0 2 passage.behind
      percentBytes fuel (number.toUInt8 :: done) rest
    else return (done.reverse, passage)

def isTagChar (c : Char) : Bool :=
  isNameChar c ||
  [';', '/', '?', ':', '@', '&', '=', '+', '$', ',', '.', '!', '~', '*', '\'', '(', ')', '[',
    ']'].contains c

/-- The text of a tag behind what is already read.  Bytes may be written by number in it. -/
def tagFrom : Nat → List Char → Passage → Except Refusal (List Char × Passage)
  | 0, done, passage => .ok (done.reverse, passage)
  | fuel + 1, done, passage => do
    let c ← passage.next
    if isTagChar c then tagFrom fuel (c :: done) passage.behind
    else if c = '%' then
      let (bytes, rest) ← percentBytes passage.left [] passage
      match Text.Utf8.decode? bytes with
      | none => .error .malformed
      | some decoded => tagFrom fuel (decoded.toList.reverse ++ done) rest
    else return (done.reverse, passage)

def tagSuffix (passage : Passage) : Except Refusal (String × Passage) := do
  let (text, rest) ← tagFrom (passage.left + 1) [] passage
  if text = [] then .error .malformed else return (String.ofList text, rest)

/-- Is there a second exclamation mark in the word whose first one stands here? -/
def hasHandle (passage : Passage) : Except Refusal Bool := do
  let rest ← passage.behind.skip fun c => !isSpaceOrEnd c && c ≠ '!'
  return (← rest.next) = '!'

/-- The tag whose exclamation mark stands here, without what follows it. -/
def tagBody (passage : Passage) : Except Refusal (WrittenTag × Passage) := do
  let rest := passage.behind
  let c ← rest.next
  if c = '<' then
    let (suffix, after) ← tagSuffix (← rest.pass 1)
    if (← after.next) ≠ '>' then .error .malformed
    return (⟨none, suffix⟩, ← after.pass 1)
  else if isGap c then return (⟨none, "!"⟩, rest)
  else
    let (handle, rest) ← if ← hasHandle passage then tagHandle passage else pure ("!", rest)
    let (suffix, after) ← tagSuffix rest
    return (⟨some handle, suffix⟩, after)

def writtenTag (passage : Passage) : Except Refusal (WrittenTag × Passage) := do
  let (tag, after) ← tagBody passage
  if isSpaceOrEnd (← after.next) then return (tag, after) else .error .malformed

def versionNumber (passage : Passage) : Except Refusal (Nat × Passage) := do
  let (digits, rest) ← passage.run Text.isAsciiDigit
  if digits = [] then .error .malformed else return (← wholeOfDigits digits, rest)

def directiveBody (name : List Char) (passage : Passage) :
    Except Refusal (Directive × Passage) := do
  if name = ['Y', 'A', 'M', 'L'] then
    let (major, rest) ← versionNumber (← passage.skip (· = ' '))
    if (← rest.next) ≠ '.' then .error .malformed
    else
      let (_, after) ← versionNumber (← rest.pass 1)
      return (.version major, after)
  else if name = ['T', 'A', 'G'] then
    let (handle, rest) ← tagHandle (← passage.skip (· = ' '))
    if (← rest.next) ≠ ' ' then .error .malformed
    else
      let (leader, after) ← tagSuffix (← rest.skip (· = ' '))
      return (.tagHandle handle leader, after)
  else return (.other, ← passage.skip (!isBreakOrEnd ·))

def directive (passage : Passage) : Except Refusal (Directive × Passage) := do
  let (name, rest) ← passage.behind.run isNameChar
  if name = [] || !isSpaceOrEnd (← rest.next) then .error .malformed
  else
    let (found, after) ← directiveBody name rest
    if isSpaceOrEnd (← after.next) then return (found, ← after.restOfLine)
    else .error .malformed

end ModulePlan.Document.Yaml
