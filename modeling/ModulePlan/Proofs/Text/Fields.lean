/-
Parts joined with a separator, and cut apart again.

Cutting undoes joining if no part holds the separator.  A joined text is blank only if each of
its parts is.  A run of characters of one kind is cut off where it ends.
-/

import ModulePlan.Text.Blank
import ModulePlan.Text.Fields

namespace ModulePlan.Text

/-! ### Runs -/

theorem takeWhile_append_drop (test : Char → Bool) (cs : List Char) :
    cs.takeWhile test ++ cs.drop (cs.takeWhile test).length = cs :=
  List.prefix_iff_eq_append.mp (List.takeWhile_prefix test)

/-- A run ends at the first character that is not of its kind. -/
theorem cut_run {test : Char → Bool} {run rest : List Char} (inside : ∀ c ∈ run, test c = true)
    (ends : ∀ c ∈ rest.head?, test c = false) :
    (run ++ rest).takeWhile test = run ∧ (run ++ rest).dropWhile test = rest := by
  rw [List.takeWhile_append_of_pos inside, List.dropWhile_append_of_pos inside]
  cases rest with
  | nil => exact ⟨List.append_nil run, rfl⟩
  | cons c more =>
      have stops : ¬test c = true := Bool.eq_false_iff.mp (ends c rfl)
      rw [List.takeWhile_cons_of_neg stops, List.dropWhile_cons_of_neg stops, List.append_nil]
      exact ⟨rfl, rfl⟩

theorem takeWhile_run {test : Char → Bool} {run : List Char} (inside : ∀ c ∈ run, test c = true)
    {c : Char} (stops : test c = false) (rest : List Char) :
    (run ++ c :: rest).takeWhile test = run := by
  refine (cut_run inside ?_).1
  intro d first
  cases first
  exact stops

/-! ### Separators -/

theorem fields_of_not_mem {separator : Char} {cs : List Char} (absent : separator ∉ cs) :
    fields separator cs = [cs] := by
  induction cs with
  | nil => rfl
  | cons c rest ih =>
      have different : c ≠ separator := by
        intro same
        exact absent (List.mem_cons.mpr (Or.inl same.symm))
      have later := ih fun present => absent (List.mem_cons_of_mem c present)
      unfold fields
      rw [if_neg different, later]

theorem fields_append_separator {separator : Char} {cs : List Char} (absent : separator ∉ cs)
    (rest : List Char) :
    fields separator (cs ++ separator :: rest) = cs :: fields separator rest := by
  induction cs with
  | nil =>
      rw [List.nil_append, fields, if_pos rfl]
  | cons c cs ih =>
      have different : c ≠ separator := by
        intro same
        exact absent (List.mem_cons.mpr (Or.inl same.symm))
      have later := ih fun present => absent (List.mem_cons_of_mem c present)
      rw [List.cons_append, fields, if_neg different, later]

theorem fields_ne_nil (separator : Char) (cs : List Char) : fields separator cs ≠ [] := by
  cases cs with
  | nil => exact List.cons_ne_nil _ _
  | cons c rest =>
      unfold fields
      split
      · exact List.cons_ne_nil _ _
      · split
        · exact List.cons_ne_nil _ _
        · exact List.cons_ne_nil _ _

theorem cutAt?_of_not_mem {separator : Char} {cs : List Char} (absent : separator ∉ cs) :
    cutAt? separator cs = none := by
  induction cs with
  | nil => rfl
  | cons c rest ih =>
      rw [List.mem_cons, not_or] at absent
      unfold cutAt?
      rw [if_neg (Ne.symm absent.1), ih absent.2]
      rfl

theorem cutAt?_append_separator {separator : Char} {cs : List Char} (absent : separator ∉ cs)
    (rest : List Char) : cutAt? separator (cs ++ separator :: rest) = some (cs, rest) := by
  induction cs with
  | nil =>
      rw [List.nil_append, cutAt?, if_pos rfl]
  | cons c cs ih =>
      rw [List.mem_cons, not_or] at absent
      rw [List.cons_append, cutAt?, if_neg (Ne.symm absent.1), ih absent.2]
      rfl

theorem toList_joinFields_cons_cons (separator first second : String) (rest : List String) :
    (joinFields separator (first :: second :: rest)).toList =
      first.toList ++ separator.toList ++ (joinFields separator (second :: rest)).toList := by
  unfold joinFields
  rw [String.toList_intercalate, String.toList_intercalate, List.map_cons, List.map_cons,
    List.intercalate_cons_cons]

theorem toList_joinFields_singleton (separator part : String) :
    (joinFields separator [part]).toList = part.toList := by
  unfold joinFields
  rw [String.toList_intercalate]
  exact List.append_nil _

/-- Parts without the separator are found again. -/
theorem fields_joinFields {separator : Char} {between : String}
    (single : between.toList = [separator]) {parts : List String} (some : parts ≠ [])
    (free : ∀ part ∈ parts, separator ∉ part.toList) :
    fields separator (joinFields between parts).toList = parts.map String.toList := by
  induction parts with
  | nil => exact absurd rfl some
  | cons first rest ih =>
      obtain ⟨here, later⟩ := List.forall_mem_cons.mp free
      cases rest with
      | nil =>
          rw [toList_joinFields_singleton, fields_of_not_mem here]
          rfl
      | cons second rest =>
          have others := ih (List.cons_ne_nil second rest) later
          rw [toList_joinFields_cons_cons, single, List.append_assoc, List.singleton_append,
            fields_append_separator here, others]
          rfl

theorem subset_joinFields {parts : List String} {part : String} (present : part ∈ parts)
    (separator : String) : part.toList ⊆ (joinFields separator parts).toList := by
  induction parts with
  | nil => cases present
  | cons first rest ih =>
      cases rest with
      | nil =>
          rw [List.mem_singleton.mp present, toList_joinFields_singleton]
          exact List.Subset.refl _
      | cons second rest =>
          rw [toList_joinFields_cons_cons]
          rcases List.mem_cons.mp present with rfl | later
          · exact List.subset_append_of_subset_left _ (List.subset_append_left _ _)
          · exact List.subset_append_of_subset_right _ (ih later)

theorem not_mem_joinFields {separator : String} {c : Char} (other : c ∉ separator.toList)
    {parts : List String} (free : ∀ part ∈ parts, c ∉ part.toList) :
    c ∉ (joinFields separator parts).toList := by
  induction parts with
  | nil => exact List.not_mem_nil
  | cons first rest ih =>
      obtain ⟨here, later⟩ := List.forall_mem_cons.mp free
      cases rest with
      | nil =>
          rw [toList_joinFields_singleton]
          exact here
      | cons second rest =>
          rw [toList_joinFields_cons_cons, List.mem_append, List.mem_append, not_or, not_or]
          exact ⟨⟨here, other⟩, ih later⟩

theorem isBlankText_of_subset {left right : String} (inside : left.toList ⊆ right.toList)
    (visible : isBlankText left = false) : isBlankText right = false := by
  unfold isBlankText at *
  rw [List.all_eq_false] at *
  obtain ⟨c, present, seen⟩ := visible
  exact ⟨c, inside present, seen⟩

theorem isBlankText_joinFields {parts : List String} {part : String} (present : part ∈ parts)
    (visible : isBlankText part = false) (separator : String) :
    isBlankText (joinFields separator parts) = false :=
  isBlankText_of_subset (subset_joinFields present separator) visible

end ModulePlan.Text
