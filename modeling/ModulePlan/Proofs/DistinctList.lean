/-
Distinct lists that grow.

Inserting the elements of a list keeps what is there in front and puts each new element
behind it where it first occurs.
-/

import Mathlib.Data.List.Infix
import ModulePlan.DistinctList

namespace ModulePlan.DistinctList

variable {α : Type} [DecidableEq α]

omit [DecidableEq α] in
@[simp] theorem not_mem_empty (a : α) : a ∉ (empty : DistinctList α) :=
  List.not_mem_nil

theorem insert_of_mem {items : DistinctList α} {a : α} (present : a ∈ items) :
    items.insert a = items := by
  apply eq_of_toList
  rw [toList_insert, if_pos present]

theorem mem_foldl_insert (items : DistinctList α) (elements : List α) (b : α) :
    b ∈ elements.foldl insert items ↔ b ∈ items ∨ b ∈ elements := by
  induction elements generalizing items with
  | nil => simp only [List.foldl_nil, List.not_mem_nil, or_false]
  | cons a rest ih =>
      rw [List.foldl_cons, ih, mem_insert, List.mem_cons, or_assoc]

@[simp] theorem mem_union (items others : DistinctList α) (b : α) :
    b ∈ items.union others ↔ b ∈ items ∨ b ∈ others :=
  mem_foldl_insert items others.toList b

omit [DecidableEq α] in
theorem mem_of_toList_eq_cons {items : DistinctList α} {a : α} {rest : List α}
    (listed : items.toList = a :: rest) : a ∈ items := by
  rw [← mem_toList, listed]
  exact List.mem_cons_self

@[simp] theorem mem_ofList (elements : List α) (b : α) :
    b ∈ ofList elements ↔ b ∈ elements := by
  unfold ofList
  rw [mem_foldl_insert]
  simp only [not_mem_empty, false_or]

/-! ### Order -/

theorem prefix_insert (items : DistinctList α) (a : α) :
    items.toList <+: (items.insert a).toList := by
  rw [toList_insert]
  split
  · exact List.prefix_refl _
  · exact List.prefix_append _ _

theorem eraseDups_concat (elements : List α) (a : α) :
    (elements ++ [a]).eraseDups =
      if a ∈ elements then elements.eraseDups else elements.eraseDups ++ [a] := by
  rw [List.eraseDups_append]
  by_cases present : a ∈ elements
  · have nothing : [a].removeAll elements = [] := by
      simp [List.removeAll, present]
    rw [nothing, if_pos present, List.eraseDups_nil, List.append_nil]
  · have itself : [a].removeAll elements = [a] := by
      simp [List.removeAll, present]
    rw [itself, if_neg present]
    rfl

/-- The elements of a list, inserted one after another, stand where they first occur. -/
theorem toList_ofList (elements : List α) : (ofList elements).toList = elements.eraseDups := by
  induction elements using List.reverseRecOn with
  | nil => rfl
  | append_singleton elements a ih =>
      have split : ofList (elements ++ [a]) = (ofList elements).insert a := by
        unfold ofList
        rw [List.foldl_append, List.foldl_cons, List.foldl_nil]
      rw [split, toList_insert, eraseDups_concat, ih]
      simp only [mem_ofList]

theorem nodup_eraseDups (elements : List α) : elements.eraseDups.Nodup := by
  rw [← toList_ofList]
  exact nodup _

theorem ofList_append (elements others : List α) :
    ofList (elements ++ others) = others.foldl insert (ofList elements) :=
  List.foldl_append

/-! ### Unions -/

theorem foldl_insert_of_subset {items : DistinctList α} {elements : List α}
    (present : ∀ a ∈ elements, a ∈ items) : elements.foldl insert items = items := by
  induction elements with
  | nil => rfl
  | cons a rest ih =>
      rw [List.foldl_cons, insert_of_mem (present a List.mem_cons_self)]
      exact ih fun b later => present b (List.mem_cons_of_mem a later)

theorem union_of_subset {items others : DistinctList α}
    (present : ∀ a ∈ others, a ∈ items) : items.union others = items :=
  foldl_insert_of_subset present

theorem union_insert (items others : DistinctList α) (a : α) :
    items.union (others.insert a) = (items.union others).insert a := by
  unfold union
  rw [toList_insert]
  by_cases present : a ∈ others
  · have already : a ∈ others.toList.foldl insert items :=
      (mem_foldl_insert items others.toList a).mpr (Or.inr present)
    rw [if_pos present, insert_of_mem already]
  · rw [if_neg present, List.foldl_append, List.foldl_cons, List.foldl_nil]

theorem union_foldl_insert (items others : DistinctList α) (elements : List α) :
    items.union (elements.foldl insert others) = elements.foldl insert (items.union others) := by
  induction elements generalizing others with
  | nil => rfl
  | cons a rest ih => rw [List.foldl_cons, ih, union_insert, List.foldl_cons]

theorem union_union (items others more : DistinctList α) :
    (items.union others).union more = items.union (others.union more) :=
  (union_foldl_insert items others more.toList).symm

theorem foldl_insert_toList_ofList (items : DistinctList α) (elements : List α) :
    (ofList elements).toList.foldl insert items = elements.foldl insert items := by
  induction elements using List.reverseRecOn with
  | nil => rfl
  | append_singleton elements a ih =>
      have last : ofList (elements ++ [a]) = (ofList elements).insert a :=
        ofList_append elements [a]
      have step := union_insert items (ofList elements) a
      unfold union at step
      rw [last, step, ih, List.foldl_append, List.foldl_cons, List.foldl_nil]

theorem union_ofList (elements others : List α) :
    (ofList elements).union (ofList others) = ofList (elements ++ others) := by
  rw [ofList_append]
  exact foldl_insert_toList_ofList (ofList elements) others

theorem toList_foldl_insert {items : DistinctList α} {elements : List α}
    (distinct : (items.toList ++ elements).Nodup) :
    (elements.foldl insert items).toList = items.toList ++ elements := by
  induction elements generalizing items with
  | nil => exact (List.append_nil _).symm
  | cons a rest ih =>
      have absent : a ∉ items :=
        fun present => (List.nodup_append.mp distinct).2.2 a present a List.mem_cons_self rfl
      have last : (items.insert a).toList = items.toList ++ [a] := by
        rw [toList_insert, if_neg absent]
      have split : items.toList ++ a :: rest = (items.insert a).toList ++ rest := by
        rw [last, List.append_assoc, List.singleton_append]
      rw [List.foldl_cons, split]
      rw [split] at distinct
      exact ih distinct

theorem empty_union (others : DistinctList α) : empty.union others = others := by
  apply eq_of_toList
  exact toList_foldl_insert others.nodup

/-! ### Taking out -/

theorem toList_erase (items : DistinctList α) (a : α) :
    (items.erase a).toList = items.toList.filter (· ≠ a) :=
  rfl

theorem erase_insert_self (items : DistinctList α) (a : α) :
    (items.insert a).erase a = items.erase a := by
  apply eq_of_toList
  rw [toList_erase, toList_erase, toList_insert]
  split
  · rfl
  · simp

theorem erase_insert_of_ne {a b : α} (different : a ≠ b) (items : DistinctList α) :
    (items.insert a).erase b = (items.erase b).insert a := by
  apply eq_of_toList
  rw [toList_insert, toList_erase, toList_erase, toList_insert]
  have unchanged : a ∈ items.erase b ↔ a ∈ items := by
    rw [mem_erase, and_iff_left different]
  by_cases present : a ∈ items
  · rw [if_pos present, if_pos (unchanged.mpr present)]
  · rw [if_neg present, if_neg (fun here => present (unchanged.mp here)), List.filter_append]
    simp [different]

theorem erase_ofList (elements : List α) (b : α) :
    (ofList elements).erase b = ofList (elements.filter (· ≠ b)) := by
  induction elements using List.reverseRecOn with
  | nil => rfl
  | append_singleton elements a ih =>
      have last : ofList (elements ++ [a]) = (ofList elements).insert a :=
        ofList_append elements [a]
      rw [last, List.filter_append, ofList_append, ← ih]
      by_cases same : a = b
      · subst same
        rw [erase_insert_self]
        simp
      · rw [erase_insert_of_ne same]
        simp [same]

end ModulePlan.DistinctList
