/-
Reading what was written as UTF-8.

Each character is written as a lead byte and bytes that carry six bits each; reading puts the
bits together again.
-/

import Mathlib.Tactic.IntervalCases
import ModulePlan.Text.Utf8

namespace ModulePlan.Text.Utf8

/-! ### Bytes -/

/-- The byte that carries the last six bits of a number. -/
private def continuation (number : Nat) : UInt8 :=
  UInt8.ofNat (number % 64 + 128)

private theorem toNat_continuation (number : Nat) :
    (continuation number).toNat = number % 64 + 128 := by
  unfold continuation
  rw [UInt8.toNat_ofNat', Nat.mod_eq_of_lt (by omega)]

private theorem sequence_continuation {low high : UInt8} {payload following number : Nat}
    (above : low.toNat ≤ number % 64 + 128) (below : number % 64 + 128 ≤ high.toNat)
    (rest : List UInt8) :
    sequence low high payload (following + 1) (continuation number :: rest) =
      ((sequence 0x80 0xbf (64 * payload + number % 64) following rest).1,
        (sequence 0x80 0xbf (64 * payload + number % 64) following rest).2 + 1) := by
  have inside : (low ≤ continuation number && continuation number ≤ high) = true := by
    rw [Bool.and_eq_true, decide_eq_true_eq, decide_eq_true_eq, UInt8.le_iff_toNat_le,
      UInt8.le_iff_toNat_le, toNat_continuation]
    exact ⟨above, below⟩
  rw [sequence, if_pos inside, toNat_continuation, Nat.add_sub_cancel]

private theorem lead_of_two {bits : Nat} (least : 2 ≤ bits) (fits : bits < 32) :
    Lead.of? (UInt8.ofNat (bits + 0xc0)) = some ⟨1, 0x80, 0xbf, bits⟩ := by
  interval_cases bits <;> rfl

private theorem lead_of_three {bits : Nat} (fits : bits < 16) :
    Lead.of? (UInt8.ofNat (bits + 0xe0)) =
      some ⟨2, if bits = 0 then 0xa0 else 0x80, if bits = 13 then 0x9f else 0xbf, bits⟩ := by
  interval_cases bits <;> rfl

private theorem lead_of_four {bits : Nat} (fits : bits < 5) :
    Lead.of? (UInt8.ofNat (bits + 0xf0)) =
      some ⟨3, if bits = 0 then 0x90 else 0x80, if bits = 4 then 0x8f else 0xbf, bits⟩ := by
  interval_cases bits <;> rfl

private theorem next_of_lead {byte : UInt8} {lead : Lead} (large : 0x80 ≤ byte.toNat)
    (found : Lead.of? byte = some lead) (rest : List UInt8) :
    next byte rest =
      ((sequence lead.low lead.high lead.payload lead.following rest).1,
        rest.drop (sequence lead.low lead.high lead.payload lead.following rest).2) := by
  have notSmall : ¬ byte < 0x80 := by
    rw [UInt8.lt_iff_toNat_lt]
    exact Nat.not_lt.mpr large
  unfold next
  rw [if_neg notSmall, found]

/-! ### Characters -/

private theorem next_one {number : Nat} (fits : number ≤ 0x7f) (rest : List UInt8) :
    next (UInt8.ofNat number) rest = (some (Char.ofNat number), rest) := by
  have code : (UInt8.ofNat number).toNat = number := by
    rw [UInt8.toNat_ofNat', Nat.mod_eq_of_lt (by omega)]
  have small : UInt8.ofNat number < 0x80 := by
    rw [UInt8.lt_iff_toNat_lt, code]
    exact Nat.lt_succ_of_le fits
  unfold next
  rw [if_pos small, code]

private theorem next_two {number : Nat} (least : 0x7f < number) (fits : number ≤ 0x7ff)
    (rest : List UInt8) :
    next (UInt8.ofNat (number / 64 % 32 + 0xc0)) (continuation number :: rest) =
      (some (Char.ofNat number), rest) := by
  have large : 0x80 ≤ (UInt8.ofNat (number / 64 % 32 + 0xc0)).toNat := by
    rw [UInt8.toNat_ofNat', Nat.mod_eq_of_lt (by omega)]
    omega
  have bits : 64 * (number / 64 % 32) + number % 64 = number := by omega
  rw [next_of_lead large (lead_of_two (by omega) (by omega))]
  simp only
  rw [sequence_continuation (by simp) (by simp; omega), sequence, bits]
  rfl

private theorem next_three {number : Nat} (least : 0x7ff < number) (fits : number ≤ 0xffff)
    (noSurrogate : number < 0xd800 ∨ 0xdfff < number) (rest : List UInt8) :
    next (UInt8.ofNat (number / 4096 % 16 + 0xe0))
        (continuation (number / 64) :: continuation number :: rest) =
      (some (Char.ofNat number), rest) := by
  have large : 0x80 ≤ (UInt8.ofNat (number / 4096 % 16 + 0xe0)).toNat := by
    rw [UInt8.toNat_ofNat', Nat.mod_eq_of_lt (by omega)]
    omega
  have bits : 64 * (64 * (number / 4096 % 16) + number / 64 % 64) + number % 64 = number := by
    omega
  rw [next_of_lead large (lead_of_three (by omega))]
  simp only
  rw [sequence_continuation, sequence_continuation (by simp) (by simp; omega), sequence, bits]
  · rfl
  · split
    · simp
      omega
    · simp
  · split
    · simp
      omega
    · simp
      omega

private theorem next_four {number : Nat} (least : 0xffff < number) (fits : number < 0x110000)
    (rest : List UInt8) :
    next (UInt8.ofNat (number / 262144 % 8 + 0xf0))
        (continuation (number / 4096) :: continuation (number / 64) :: continuation number ::
          rest) =
      (some (Char.ofNat number), rest) := by
  have large : 0x80 ≤ (UInt8.ofNat (number / 262144 % 8 + 0xf0)).toNat := by
    rw [UInt8.toNat_ofNat', Nat.mod_eq_of_lt (by omega)]
    omega
  have bits : 64 * (64 * (64 * (number / 262144 % 8) + number / 4096 % 64) +
      number / 64 % 64) + number % 64 = number := by
    omega
  rw [next_of_lead large (lead_of_four (by omega))]
  simp only
  rw [sequence_continuation, sequence_continuation (by simp) (by simp; omega),
    sequence_continuation (by simp) (by simp; omega), sequence, bits]
  · rfl
  · split
    · simp
      omega
    · simp
  · split
    · simp
      omega
    · simp
      omega

/-- The first byte of a character and those behind it are read as the character. -/
theorem next_encodeChar (c : Char) :
    ∃ byte more, String.utf8EncodeChar c = byte :: more ∧
      ∀ rest, next byte (more ++ rest) = (some c, rest) := by
  have valid : c.val.toNat < 0xd800 ∨ 0xdfff < c.val.toNat ∧ c.val.toNat < 0x110000 := c.valid
  have same : Char.ofNat c.val.toNat = c := Char.ofNat_toNat c
  unfold String.utf8EncodeChar
  simp only
  split
  · rename_i fits
    refine ⟨_, _, rfl, fun rest => ?_⟩
    rw [List.nil_append, next_one fits, same]
  · split
    · rename_i least fits
      refine ⟨_, _, rfl, fun rest => ?_⟩
      exact (next_two (Nat.not_le.mp least) fits rest).trans (by rw [same])
    · split
      · rename_i least fits
        refine ⟨_, _, rfl, fun rest => ?_⟩
        exact (next_three (Nat.not_le.mp least) fits (by omega) rest).trans (by rw [same])
      · rename_i least
        refine ⟨_, _, rfl, fun rest => ?_⟩
        exact (next_four (Nat.not_le.mp least) (by omega) rest).trans (by rw [same])

private theorem charactersFrom_encode (cs : List Char) (read : List (Option Char)) :
    charactersFrom read (cs.flatMap String.utf8EncodeChar) = read.reverse ++ cs.map some := by
  induction cs generalizing read with
  | nil =>
      rw [List.flatMap_nil, charactersFrom]
      simp
  | cons c rest ih =>
      obtain ⟨byte, more, bytes, reads⟩ := next_encodeChar c
      rw [List.flatMap_cons, bytes, List.cons_append, charactersFrom, reads, ih]
      simp

theorem characters_encode (text : String) :
    characters (encode text) = text.toList.map some :=
  charactersFrom_encode text.toList []

theorem decode?_encode (text : String) : decode? (encode text) = some text := by
  have read : (text.toList.map some).mapM id = some text.toList := by
    induction text.toList with
    | nil => rfl
    | cons c rest ih =>
        rw [List.map_cons, List.mapM_cons, ih]
        rfl
  unfold decode?
  rw [characters_encode, read, Option.map_some, String.ofList_toList]

end ModulePlan.Text.Utf8
