/-
Scanning step by step.

What stands in front decides the step: a blank, a comment, a mark or a word.  Valid names hold
plain characters only, which are none of the first three.
-/

import ModulePlan.ModuleName
import ModulePlan.Patch.Token
import ModulePlan.Proofs.Text.Blank

namespace ModulePlan.Patch.Tokens

/-! ### Steps -/

theorem scan_feed (line : Nat) (rest : List Char) :
    scan line ('\n' :: rest) = scan (line + 1) rest := by
  rw [scan]
  rfl

theorem scan_blank {c : Char} (blank : Text.isBlank c = true) (noFeed : c ≠ '\n') (line : Nat)
    (rest : List Char) : scan line (c :: rest) = scan line rest := by
  rw [scan, if_neg noFeed, if_pos blank]

theorem scan_lineComment (line : Nat) (rest : List Char) :
    scan line ('/' :: '/' :: rest) = scan line (rest.dropWhile (· ≠ '\n')) := by
  rw [scan]
  rfl

theorem scan_blockComment {rest after : List Char} {lines : Nat}
    (closed : closeComment rest = some (lines, after)) (line : Nat) :
    scan line ('/' :: '*' :: rest) = scan (line + lines) after := by
  rw [scan, if_neg (by decide), if_neg (by decide), if_neg (by simp), if_pos (by simp)]
  split
  · rename_i failed
    rw [List.tail_cons, closed] at failed
    cases failed
  · rename_i found
    rw [List.tail_cons, closed] at found
    cases found
    rfl

theorem scan_openComment {body : List Char} (unclosed : closeComment body = none) (line : Nat) :
    scan line ('/' :: '*' :: body) = .openComment line := by
  rw [scan, if_neg (by decide), if_neg (by decide), if_neg (by simp), if_pos (by simp)]
  split
  · rfl
  · rename_i found
    rw [List.tail_cons, unclosed] at found
    cases found

theorem scan_mark (sign : Mark) (line : Nat) (rest : List Char) :
    scan line (sign.char :: rest) = .cons (.mark sign) line (scan line rest) := by
  rw [scan]
  cases sign <;> rfl

/-- A character that ends no word begins one. -/
theorem scan_of_not_endsWord {c : Char} {rest : List Char} (begins : endsWord c rest = false)
    (line : Nat) :
    scan line (c :: rest) =
      .cons (.word (String.ofList (c :: (spanWord rest).1))) line
        (scan line (spanWord rest).2) := by
  unfold endsWord opensComment at begins
  simp only [Bool.or_eq_false_iff, Bool.and_eq_false_imp, decide_eq_true_eq,
    Option.isSome_eq_false_iff, Option.isNone_iff_eq_none, decide_eq_false_iff_not] at begins
  obtain ⟨⟨visible, unmarked⟩, noComment⟩ := begins
  have noFeed : c ≠ '\n' := by
    intro same
    rcases same with rfl
    exact absurd visible (by decide)
  rw [scan, if_neg noFeed]
  by_cases slash : c = '/'
  · obtain ⟨noLine, noBlock⟩ := noComment slash
    simp only [visible, noLine, noBlock, unmarked, decide_false, Bool.and_false]
    rfl
  · simp only [visible, slash, unmarked, decide_false, Bool.false_and]
    rfl

/-! ### Marks -/

theorem ofChar?_isSome_iff {c : Char} :
    (Mark.ofChar? c).isSome = true ↔ c ∈ ['{', '}', ';', ','] := by
  unfold Mark.ofChar?
  simp only [List.mem_cons, List.not_mem_nil, or_false]
  split
  · simp [*]
  · split
    · simp [*]
    · split
      · simp [*]
      · simp [*]

theorem char_of_ofChar? {c : Char} {sign : Mark} (marked : Mark.ofChar? c = some sign) :
    sign.char = c := by
  unfold Mark.ofChar? at marked
  repeat' split at marked
  all_goals cases marked
  all_goals exact Eq.symm ‹c = _›

/-! ### Names -/

/-- Characters that end no word and begin no comment. -/
def isPlain (c : Char) : Bool :=
  !Text.isBlank c && (Mark.ofChar? c).isNone && c ≠ '/'

private theorem isPlain_of_part {c : Char} (part : Text.isIdentifierPart c = true) :
    isPlain c = true := by
  have unmarked : (Mark.ofChar? c).isNone = true := by
    rw [Option.isNone_iff_eq_none, ← Option.not_isSome_iff_eq_none, ofChar?_isSome_iff]
    intro marked
    simp only [List.mem_cons, List.not_mem_nil, or_false] at marked
    rcases marked with rfl | rfl | rfl | rfl
    all_goals exact absurd part (by decide)
  have noSlash : c ≠ '/' := by
    rintro rfl
    exact absurd part (by decide)
  unfold isPlain
  rw [Text.isBlank_of_part part, unmarked, decide_eq_true noSlash]
  rfl

private theorem mem_of_fields {separator : Char} {cs : List Char} {test : Char → Bool}
    (fields : ∀ field ∈ Text.fields separator cs, ∀ c ∈ field, test c = true) :
    ∀ c ∈ cs, c = separator ∨ test c = true := by
  induction cs with
  | nil =>
      intro c absent
      cases absent
  | cons first rest ih =>
      unfold Text.fields at fields
      by_cases same : first = separator
      · rw [if_pos same] at fields
        obtain ⟨_, later⟩ := List.forall_mem_cons.mp fields
        exact List.forall_mem_cons.mpr ⟨Or.inl same, ih later⟩
      · rw [if_neg same] at fields
        cases cut : Text.fields separator rest with
        | nil =>
            rw [cut] at fields ih
            have here := fields [first] List.mem_cons_self first List.mem_cons_self
            exact List.forall_mem_cons.mpr
              ⟨Or.inr here, ih fun _ absent => absurd absent List.not_mem_nil⟩
        | cons field others =>
            rw [cut] at fields ih
            obtain ⟨whole, later⟩ := List.forall_mem_cons.mp fields
            obtain ⟨here, word⟩ := List.forall_mem_cons.mp whole
            exact List.forall_mem_cons.mpr
              ⟨Or.inr here, ih (List.forall_mem_cons.mpr ⟨word, later⟩)⟩

/-- Valid names are parts of identifiers with dots between them. -/
theorem part_of_valid {name : String} (valid : isValidName name = true) :
    ∀ c ∈ name.toList, c = '.' ∨ Text.isIdentifierPart c = true := by
  unfold isValidName at valid
  apply mem_of_fields
  intro field given
  exact Text.part_of_identifier (List.all_eq_true.mp valid field given)

/-- Valid names are plain words. -/
theorem plain_of_valid {name : String} (valid : isValidName name = true) :
    name.toList ≠ [] ∧ ∀ c ∈ name.toList, isPlain c = true := by
  constructor
  · intro empty
    unfold isValidName at valid
    rw [empty] at valid
    cases valid
  · intro c present
    rcases part_of_valid valid c present with rfl | part
    · decide
    · exact isPlain_of_part part

end ModulePlan.Patch.Tokens
