/-
The blank characters, one by one.

There are few of them, so what no blank character is can be tried on each.  None of them stands
in an identifier.
-/

import ModulePlan.Text.Blank
import ModulePlan.Text.Identifier

namespace ModulePlan.Text

/-- The codes of the blank characters. -/
def blankCodes : List Nat :=
  [9, 10, 11, 12, 13, 28, 29, 30, 31, 32, 0x85, 0xa0, 0x1680, 0x2000, 0x2001, 0x2002, 0x2003,
    0x2004, 0x2005, 0x2006, 0x2007, 0x2008, 0x2009, 0x200a, 0x2028, 0x2029, 0x202f, 0x205f, 0x3000]

private theorem mem_of_range {code first last : Nat} (inside : first ≤ code ∧ code ≤ last)
    (listed : ∀ offset ≤ last - first, first + offset ∈ blankCodes) : code ∈ blankCodes := by
  have found := listed (code - first) (by omega)
  rw [Nat.add_sub_cancel' inside.1] at found
  exact found

theorem mem_blankCodes {c : Char} (blank : isBlank c = true) : c.toNat ∈ blankCodes := by
  simp only [isBlank, Bool.or_eq_true, Bool.and_eq_true, decide_eq_true_eq, beq_iff_eq,
    or_assoc] at blank
  rcases blank with low | high | same | same | same | wide | same | same | same | same | same
  · exact mem_of_range low (by decide)
  · exact mem_of_range high (by decide)
  · rw [same]
    decide
  · rw [same]
    decide
  · rw [same]
    decide
  · exact mem_of_range wide (by decide)
  all_goals
    rw [same]
    decide

/-- A test that refuses each of the blank characters is passed by none. -/
theorem eq_false_of_isBlank {test : Char → Bool}
    (refuses : ∀ code ∈ blankCodes, test (Char.ofNat code) = false) {c : Char}
    (blank : isBlank c = true) : test c = false := by
  have refused := refuses c.toNat (mem_blankCodes blank)
  rwa [Char.ofNat_toNat] at refused

/-! ### Identifiers -/

theorem isBlank_of_part {c : Char} (part : isIdentifierPart c = true) : isBlank c = false := by
  cases blank : isBlank c with
  | false => rfl
  | true =>
      have refused : isIdentifierPart c = false := eq_false_of_isBlank (by decide +kernel) blank
      rw [refused] at part
      cases part

theorem part_of_start {c : Char} (start : isIdentifierStart c = true) :
    isIdentifierPart c = true := by
  unfold isIdentifierPart
  rw [start, Bool.true_or]

theorem part_of_identifier {cs : List Char} (identifier : isIdentifier cs = true) :
    ∀ c ∈ cs, isIdentifierPart c = true := by
  cases cs with
  | nil => cases identifier
  | cons first rest =>
      unfold isIdentifier at identifier
      obtain ⟨start, parts⟩ := Bool.and_eq_true_iff.mp identifier
      exact List.forall_mem_cons.mpr ⟨part_of_start start, List.all_eq_true.mp parts⟩

end ModulePlan.Text
