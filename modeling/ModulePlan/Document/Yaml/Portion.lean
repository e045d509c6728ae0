/-
How the text of a file comes in.

The characters of a text are asked for in portions, of which the first two come together, and
each portion is checked as a whole before any of its characters is seen.  The bytes of the
file are decoded in chunks, and no sooner than a portion needs them.  So what stands before an
unreadable character or a fault of the encoding can be read, but only up to the portion that
holds the character, and up to the last portion that is full before the chunk with the fault.
-/

import ModulePlan.Document.Binary64
import ModulePlan.Document.Yaml.Passage
import ModulePlan.Text.Lines
import ModulePlan.Text.Utf8

namespace ModulePlan.Document.Yaml

def portionSize : Nat := 4096

def leastChunk : Nat := 8192

/-- The number of characters that a reader can come to when so many are there. -/
def reach (count : Nat) : Nat :=
  if count < 2 * portionSize then 0 else count / portionSize * portionSize

/-! ### Chunks -/

/-- How far a file is decoded: the bytes of its chunks and their characters, the size of the
last chunk in both, and whether a carriage return is held back, which may belong to the line
feed behind it. -/
structure Decoding where
  bytes : Nat := 0
  characters : Nat := 0
  chunkBytes : Nat := 0
  chunkCharacters : Nat := 0
  isHolding : Bool := false

/-- The number of bytes in the next chunk.  It is guessed from the last chunk, so that there
are enough of them for the characters that the portion lacks. -/
def Decoding.nextChunk (decoding : Decoding) : Nat :=
  let lacking := portionSize - decoding.characters % portionSize
  if decoding.chunkBytes ≤ decoding.chunkCharacters || decoding.chunkCharacters = 0 then
    leastChunk
  else
    let ratio := Binary64.ofQuotient false decoding.chunkBytes decoding.chunkCharacters
    max leastChunk (ratio.times (.ofNat lacking)).floor

/-- The characters that end before a number of bytes, put before `taken` with the last one
first, and the others.  `size` bytes stand before them. -/
def charactersUpTo (limit size : Nat) (taken : List Char) : List Char → List Char × List Char
  | [] => (taken, [])
  | c :: rest =>
    if limit < size + c.utf8Size then (taken, c :: rest)
    else charactersUpTo limit (size + c.utf8Size) (c :: taken) rest

/-- The number of characters that are decoded before the chunk in which a fault shows, of a
file of `total` bytes.  The byte of the given number shows it, or the end of the file if there
is none; `size` bytes stand before the characters. -/
def decodedBefore (fault total : Nat) : Nat → Decoding → Nat → List Char → Nat
  | 0, decoding, _, _ => decoding.characters
  | fuel + 1, decoding, size, cs =>
    let limit := min total (decoding.bytes + decoding.nextChunk)
    if fault < limit || decoding.bytes = total then decoding.characters
    else
      let (taken, rest) := charactersUpTo limit size [] cs
      let isHolding := taken.head? = some '\r'
      let held := if decoding.isHolding then ['\r'] else []
      let decoded := held ++ (if isHolding then taken.drop 1 else taken).reverse
      let count := (Text.unifyLineEnds decoded).length
      decodedBefore fault total fuel
        { bytes := limit
          characters := decoding.characters + count
          chunkBytes := limit - decoding.bytes
          chunkCharacters := count
          isHolding := isHolding }
        (taken.foldl (fun size c => size + c.utf8Size) size) rest

/-! ### The passage of a file -/

/-- The passage of a text, perhaps one that cannot be read any further for a fault. -/
def Passage.ofPortions (text : List Char) (fault : Option Refusal) : Passage :=
  let readable := text.takeWhile isReadable
  match fault, text.drop readable.length with
  | none, [] => .ofText text
  | some refusal, [] => .ofBlocked text refusal
  | _, _ :: _ => .ofBlocked (readable.take (reach readable.length)) .malformed

def Passage.ofBytes (data : List UInt8) : Passage :=
  let cs := ((Text.Utf8.characters data).takeWhile (·.isSome)).filterMap id
  let size := cs.foldl (fun size c => size + c.utf8Size) 0
  match data.drop size with
  | [] => .ofPortions (Text.unifyLineEnds cs) none
  | fault =>
    let shown := size + Text.Utf8.faultLength fault
    let count := decodedBefore shown data.length (data.length + 1) {} 0 cs
    .ofPortions ((Text.unifyLineEnds cs).take (reach count)) (some (.fault .undecodable))

end ModulePlan.Document.Yaml
