/-
The tokens of a text.

A key of a mapping may stand without a mark of its own: only the colon behind it shows that it
is one, and the mark is then put in front of it.  Such a key ends on the line that it begins
on and within 1024 characters.  A token is settled, and can be used, once no mark can come
before it any more.  Where the text is refused, the settled tokens before that place can be
used all the same.
-/

import ModulePlan.Document.Yaml.Token

namespace ModulePlan.Document.Yaml

/-- Where a key without a mark may have begun: in how many brackets, before which token, and
whether nothing but a key may begin there. -/
structure PossibleKey where
  depth : Nat
  token : Nat
  isRequired : Bool
  place : Place

/-- The tokens so far, the last one first, and their number; the brackets and blocks that are
open, the innermost block first; and where keys may have begun. -/
structure Scan where
  tokens : List Token := []
  count : Nat := 0
  depth : Nat := 0
  blocks : List Nat := []
  allowsKey : Bool := true
  keys : List PossibleKey := []

namespace Scan

def push (scan : Scan) (token : Token) : Scan :=
  { scan with tokens := token :: scan.tokens, count := scan.count + 1 }

def insert (scan : Scan) (number : Nat) (token : Token) : Scan :=
  let later := scan.count - number
  { scan with
    tokens := scan.tokens.take later ++ token :: scan.tokens.drop later
    count := scan.count + 1 }

def isInFlow (scan : Scan) : Bool :=
  scan.depth ≠ 0

/-- The number of tokens that no mark can come before any more. -/
def settled (scan : Scan) : Nat :=
  scan.keys.foldl (fun count key => min count key.token) scan.count

/-! ### Possible keys -/

/-- Drops possible keys of some kind, unless one of them is required. -/
def dropKeys (scan : Scan) (isDropped : PossibleKey → Bool) : Except Refusal Scan :=
  if scan.keys.any fun key => isDropped key && key.isRequired then .error .malformed
  else .ok { scan with keys := scan.keys.filter (!isDropped ·) }

/-- Drops the possible keys that a colon at a place would be too far from. -/
def dropFarKeys (scan : Scan) (place : Place) : Except Refusal Scan :=
  scan.dropKeys fun key =>
    key.place.line ≠ place.line || key.place.index + 1024 < place.index

def dropKey (scan : Scan) : Except Refusal Scan :=
  scan.dropKeys (·.depth = scan.depth)

def noteKey (scan : Scan) (place : Place) : Except Refusal Scan :=
  if scan.allowsKey then do
    let isRequired := !scan.isInFlow && scan.blocks.head? = some place.column
    let scan ← scan.dropKey
    return { scan with keys := ⟨scan.depth, scan.count, isRequired, place⟩ :: scan.keys }
  else .ok scan

/-! ### Blocks -/

/-- Ends the blocks that are indented further than a column; all blocks for none. -/
def closeBlocks (scan : Scan) (column : Option Nat) : Scan :=
  if scan.isInFlow then scan
  else
    let closed := scan.blocks.takeWhile fun block => column.all (· < block)
    let scan := { scan with blocks := scan.blocks.drop closed.length }
    closed.foldl (fun scan _ => scan.push .blockEnd) scan

/-- Begins a block at a column, unless one that is indented as far is open.  The mark stands
before the token of the given number. -/
def openBlock (scan : Scan) (column number : Nat) (mark : Token) : Scan :=
  if scan.blocks.head?.all (· < column) then
    { scan with blocks := column :: scan.blocks }.insert number mark
  else scan

/-- Begins a block behind all tokens, unless brackets are open. -/
def openBlockHere (scan : Scan) (place : Place) (mark : Token) : Scan :=
  if scan.isInFlow then scan else scan.openBlock place.column scan.count mark

/-- The column that a block scalar is indented to at least. -/
def leastIndentation (scan : Scan) : Nat :=
  match scan.blocks with
  | [] => 1
  | block :: _ => block + 1

/-- The column that the further lines of a plain scalar are indented to at least. -/
def plainIndentation (scan : Scan) : Nat :=
  match scan.blocks with
  | [] => 0
  | block :: _ => block + 1

/-! ### Single tokens -/

abbrev Step := Except Refusal (Scan × Passage)

def endBlocks (scan : Scan) : Except Refusal Scan := do
  let scan ← (scan.closeBlocks none).dropKey
  return { scan with allowsKey := false }

/-- Begins a token that may begin a key and behind which none begins. -/
def beginContent (scan : Scan) (passage : Passage) : Except Refusal Scan := do
  return { ← scan.noteKey passage.place with allowsKey := false }

def openFlow (scan : Scan) (passage : Passage) (token : Token) : Step := do
  let scan ← scan.noteKey passage.place
  let scan := { scan with depth := scan.depth + 1, allowsKey := true }.push token
  return (scan, ← passage.pass 1)

/-- A closing bracket.  One that closes nothing is refused, but what follows is looked at
first. -/
def closeFlow (scan : Scan) (passage : Passage) (token : Token) : Step := do
  let scan ← scan.dropKey
  let rest ← passage.pass 1
  if scan.isInFlow then
    return ({ scan with depth := scan.depth - 1, allowsKey := false }.push token, rest)
  else .error .malformed

def comma (scan : Scan) (passage : Passage) : Step := do
  let scan ← scan.dropKey
  return ({ scan with allowsKey := true }.push .comma, ← passage.pass 1)

def item (scan : Scan) (passage : Passage) : Step := do
  if !scan.isInFlow && !scan.allowsKey then .error .malformed
  else
    let scan ← (scan.openBlockHere passage.place .sequenceStart).dropKey
    return ({ scan with allowsKey := true }.push .entry, ← passage.pass 1)

def plainMark (scan : Scan) (passage : Passage) (token : Token) : Step := do
  if !scan.isInFlow && !scan.allowsKey then .error .malformed
  else
    let scan ← (scan.openBlockHere passage.place .mappingStart).dropKey
    return ({ scan with allowsKey := !scan.isInFlow }.push token, ← passage.pass 1)

/-- The mark of a value.  If a key may have begun before it, the mark of the key is put
there. -/
def value (scan : Scan) (passage : Passage) : Step :=
  match scan.keys.find? (·.depth = scan.depth) with
  | none => scan.plainMark passage .value
  | some key => do
    let keys := scan.keys.filter (·.depth ≠ scan.depth)
    let scan := { scan with keys := keys, allowsKey := false }.insert key.token .key
    let scan :=
      if scan.isInFlow then scan
      else scan.openBlock key.place.column key.token .mappingStart
    return (scan.push .value, ← passage.pass 1)

def beginsPlain (scan : Scan) (passage : Passage) : Except Refusal Bool := do
  let c ← passage.next
  let isMark := isGap c || isFlowMark c ||
    ['-', '?', ':', '#', '&', '*', '!', '|', '>', '\'', '"', '%', '@', '\x60'].contains c
  if isMark then
    let d ← passage.behind.next
    return !isGap d && (c = '-' || (!scan.isInFlow && (c = '?' || c = ':')))
  else return true

def plain (scan : Scan) (passage : Passage) : Step := do
  if ← scan.beginsPlain passage then
    let scan ← scan.beginContent passage
    let (part, rest) ← plainScalar scan.isInFlow scan.plainIndentation passage
    return ({ scan with allowsKey := part.broken }.push (.scalar part.text true), rest)
  else .error .malformed

def leaf (scan : Scan) (passage : Passage) : Step := do
  let c ← passage.next
  if c = '*' then
    let scan ← scan.beginContent passage
    let (name, rest) ← anchorName passage
    return (scan.push (.alias name), rest)
  else if c = '&' then
    let scan ← scan.beginContent passage
    let (name, rest) ← anchorName passage
    return (scan.push (.anchor name), rest)
  else if c = '!' then
    let scan ← scan.beginContent passage
    let (tag, rest) ← writtenTag passage
    return (scan.push (.tag tag), rest)
  else if (c = '|' || c = '>') && !scan.isInFlow then
    let scan ← scan.dropKey
    let (text, rest) ← blockScalar scan.leastIndentation passage
    return ({ scan with allowsKey := true }.push (.scalar text false), rest)
  else if c = '\'' || c = '"' then
    let scan ← scan.beginContent passage
    let (text, rest) ← quotedScalar passage
    return (scan.push (.scalar text false), rest)
  else scan.plain passage

def isBeforeGap (passage : Passage) : Except Refusal Bool :=
  isGap <$> passage.behind.next

/-- A token that brackets, commas, hyphens, question marks or colons make, or a leaf. -/
def mark (scan : Scan) (passage : Passage) : Step := do
  let c ← passage.next
  if c = '[' then scan.openFlow passage .flowSequenceStart
  else if c = '\x7b' then scan.openFlow passage .flowMappingStart
  else if c = ']' then scan.closeFlow passage .flowSequenceEnd
  else if c = '\x7d' then scan.closeFlow passage .flowMappingEnd
  else if c = ',' then scan.comma passage
  else if c = '-' then
    if ← isBeforeGap passage then scan.item passage else scan.leaf passage
  else if c = '?' || c = ':' then
    let isMark ← if scan.isInFlow then pure true else isBeforeGap passage
    if !isMark then scan.leaf passage
    else if c = '?' then scan.plainMark passage .key
    else scan.value passage
  else scan.leaf passage

def token (scan : Scan) (passage : Passage) : Step := do
  let c ← passage.next
  let atStart := passage.column = 0
  let isBoundary ← if atStart && (c = '-' || c = '.') then passage.isBoundary else pure false
  if atStart && c = '%' then
    let scan ← scan.endBlocks
    let (found, rest) ← directive passage
    return (scan.push (.directive found), rest)
  else if isBoundary then
    let scan ← scan.endBlocks
    return (scan.push (if c = '-' then .documentStart else .documentEnd), ← passage.pass 3)
  else scan.mark passage

/-! ### All tokens -/

/-- Skips spaces, comments and line ends, and tells whether a key may begin behind them, which
outside brackets is so on a new line. -/
def skipToToken (inFlow inComment allowsKey : Bool) : Passage → Except Refusal (Bool × Passage)
  | .ended place => .ok (allowsKey, .ended place)
  | .blocked refusal => .error refusal
  | .more spot left rest =>
    if isBreak spot.char then skipToToken inFlow false (allowsKey || !inFlow) rest
    else if inComment || spot.char = ' ' then skipToToken inFlow inComment allowsKey rest
    else if spot.char = '#' then skipToToken inFlow true allowsKey rest
    else .ok (allowsKey, .more spot left rest)

def skipMark (passage : Passage) : Except Refusal Passage := do
  if (← passage.next) = byteOrderMark && passage.place.index = 0 then passage.pass 1
  else return passage

/-- The next token with what comes before it, and the passage behind it, unless the text ends
there. -/
def step (scan : Scan) (passage : Passage) : Except Refusal (Scan × Option Passage) := do
  let (allowsKey, rest) ←
    skipToToken scan.isInFlow false scan.allowsKey (← skipMark passage)
  let scan ← { scan with allowsKey := allowsKey }.dropFarKeys rest.place
  let scan := scan.closeBlocks (some rest.column)
  if (← rest.next) = endMark then return (← (scan.closeBlocks none).dropKey, none)
  else
    let (scan, rest) ← scan.token rest
    let _ ← rest.next
    return (← scan.dropFarKeys rest.place, some rest)

def finish : Nat → Scan → Passage → Tokens
  | 0, scan, _ => .prepend scan.tokens .ended
  | fuel + 1, scan, passage =>
    match scan.step passage with
    | .ok (scan, some rest) => finish fuel scan rest
    | .ok (scan, none) => .prepend scan.tokens .ended
    | .error refusal => .prepend (scan.tokens.drop (scan.count - scan.settled)) (.refused refusal)

end Scan

/-- The tokens of a text.  A byte order mark before it does not count. -/
def Tokens.ofPassage (passage : Passage) : Tokens :=
  Scan.finish (passage.left + 1) {} passage

end ModulePlan.Document.Yaml
