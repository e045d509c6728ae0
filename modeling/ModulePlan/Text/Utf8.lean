/-
Reading UTF-8.  The bytes are cut into characters and faults; a fault is the longest
start of an encoded character that does not go on, or one byte that starts none.
-/

namespace ModulePlan.Text.Utf8

/-- The bytes that follow a lead byte: how many, and the bounds of the first of them, which
leave out overlong forms, surrogates and numbers above U+10FFFF. -/
structure Lead where
  following : Nat
  low : UInt8
  high : UInt8
  payload : Nat

/-- What a lead byte announces; nothing for a byte that leads no longer sequence. -/
def Lead.of? (byte : UInt8) : Option Lead :=
  if 0xc2 ≤ byte && byte ≤ 0xdf then some ⟨1, 0x80, 0xbf, byte.toNat - 0xc0⟩
  else if byte == 0xe0 then some ⟨2, 0xa0, 0xbf, 0⟩
  else if byte == 0xed then some ⟨2, 0x80, 0x9f, 0xd⟩
  else if 0xe1 ≤ byte && byte ≤ 0xef then some ⟨2, 0x80, 0xbf, byte.toNat - 0xe0⟩
  else if byte == 0xf0 then some ⟨3, 0x90, 0xbf, 0⟩
  else if byte == 0xf4 then some ⟨3, 0x80, 0x8f, 4⟩
  else if 0xf1 ≤ byte && byte ≤ 0xf3 then some ⟨3, 0x80, 0xbf, byte.toNat - 0xf0⟩
  else none

/-- Reads the bytes of one sequence after its lead byte: the character, or nothing where the
sequence breaks off, and the number of bytes used. -/
def sequence (low high : UInt8) (payload : Nat) : Nat → List UInt8 → Option Char × Nat
  | 0, _ => (some (Char.ofNat payload), 0)
  | _ + 1, [] => (none, 0)
  | following + 1, byte :: rest =>
    if low ≤ byte && byte ≤ high then
      let (read, used) := sequence 0x80 0xbf (64 * payload + (byte.toNat - 0x80)) following rest
      (read, used + 1)
    else (none, 0)

/-- The next character, or nothing for a fault, and the bytes behind it. -/
def next (byte : UInt8) (rest : List UInt8) : Option Char × List UInt8 :=
  if byte < 0x80 then (some (Char.ofNat byte.toNat), rest)
  else
    match Lead.of? byte with
    | none => (none, rest)
    | some lead =>
      let (read, used) := sequence lead.low lead.high lead.payload lead.following rest
      (read, rest.drop used)

theorem length_next_le (byte : UInt8) (rest : List UInt8) :
    (next byte rest).2.length ≤ rest.length := by
  unfold next
  split
  · exact Nat.le_refl _
  · split
    · exact Nat.le_refl _
    · exact (List.drop_sublist _ _).length_le

/-- The characters of a byte string behind those already read, which are given with the last
one first; nothing stands in the place of each fault. -/
def charactersFrom (read : List (Option Char)) : List UInt8 → List (Option Char)
  | [] => read.reverse
  | byte :: rest => charactersFrom ((next byte rest).1 :: read) (next byte rest).2
termination_by bytes => bytes.length
decreasing_by
  have := length_next_le byte rest
  simp only [List.length_cons]
  omega

/-- The characters of a byte string, with nothing in the place of each fault. -/
def characters (bytes : List UInt8) : List (Option Char) :=
  charactersFrom [] bytes

def faultLength : List UInt8 → Nat
  | [] => 0
  | byte :: rest =>
    match Lead.of? byte with
    | none => 0
    | some lead => 1 + (sequence lead.low lead.high lead.payload lead.following rest).2

def decode? (bytes : List UInt8) : Option String :=
  ((characters bytes).mapM id).map String.ofList

/-- The text of any byte string, with the replacement character for each fault. -/
def decodeLossy (bytes : List UInt8) : String :=
  String.ofList ((characters bytes).map (·.getD '\ufffd'))

/-- The bytes of a text. -/
def encode (text : String) : List UInt8 :=
  text.toList.flatMap String.utf8EncodeChar

end ModulePlan.Text.Utf8
