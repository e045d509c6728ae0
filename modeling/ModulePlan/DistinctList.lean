/-
Lists without repetitions, in the order of insertion.

A distinct list is a set that remembers when each element came in.  Every operation
keeps the elements that stay in their order; an element that is put back after it was
taken out stands last.  The main statements describe each operation by its effect on
the underlying list and on membership.
-/

namespace ModulePlan

structure DistinctList (α : Type) where
  toList : List α
  nodup : toList.Nodup := by simp
deriving DecidableEq

namespace DistinctList

variable {α : Type} [DecidableEq α]

instance : Membership α (DistinctList α) := ⟨fun items a => a ∈ items.toList⟩

instance (items : DistinctList α) (a : α) : Decidable (a ∈ items) :=
  inferInstanceAs (Decidable (a ∈ items.toList))

omit [DecidableEq α] in
@[ext] theorem eq_of_toList {left right : DistinctList α} (same : left.toList = right.toList) :
    left = right := by
  cases left
  cases right
  cases same
  rfl

omit [DecidableEq α] in
theorem mem_toList {items : DistinctList α} {a : α} : a ∈ items.toList ↔ a ∈ items :=
  Iff.rfl

def empty : DistinctList α where
  toList := []

instance : Inhabited (DistinctList α) := ⟨empty⟩

def isEmpty (items : DistinctList α) : Bool :=
  items.toList.isEmpty

def size (items : DistinctList α) : Nat :=
  items.toList.length

/-- Puts an element at the end, unless it is there already. -/
def insert (items : DistinctList α) (a : α) : DistinctList α :=
  if absent : a ∈ items.toList then items
  else
    { toList := items.toList ++ [a]
      nodup := by
        rw [List.nodup_append]
        refine ⟨items.nodup, by simp, ?_⟩
        intro b present c same equal
        rw [List.mem_singleton] at same
        subst same
        subst equal
        exact absent present }

theorem toList_insert (items : DistinctList α) (a : α) :
    (items.insert a).toList = if a ∈ items then items.toList else items.toList ++ [a] := by
  unfold insert
  by_cases present : a ∈ items.toList
  · rw [dif_pos present, if_pos (mem_toList.mp present)]
  · rw [dif_neg present, if_neg (fun h => present (mem_toList.mpr h))]

@[simp] theorem mem_insert (items : DistinctList α) (a b : α) :
    b ∈ items.insert a ↔ b ∈ items ∨ b = a := by
  rw [← mem_toList, toList_insert]
  by_cases present : a ∈ items
  · rw [if_pos present]
    constructor
    · exact Or.inl
    · intro given
      rcases given with h | rfl
      · exact h
      · exact present
  · rw [if_neg present]
    simp [mem_toList]

def erase (items : DistinctList α) (a : α) : DistinctList α where
  toList := items.toList.filter (· ≠ a)
  nodup := items.nodup.sublist List.filter_sublist

@[simp] theorem mem_erase (items : DistinctList α) (a b : α) :
    b ∈ items.erase a ↔ b ∈ items ∧ b ≠ a := by
  rw [← mem_toList]
  simp [erase, mem_toList]

/-- The elements of a list, each where it first occurs. -/
def ofList (elements : List α) : DistinctList α :=
  elements.foldl insert empty

/-- The elements of the first list, then the new ones of the second. -/
def union (items others : DistinctList α) : DistinctList α :=
  others.toList.foldl insert items

def filter (test : α → Bool) (items : DistinctList α) : DistinctList α where
  toList := items.toList.filter test
  nodup := items.nodup.sublist List.filter_sublist

/-- The elements of the second list that are in the first, in the order of the second. -/
def inter (items others : DistinctList α) : DistinctList α :=
  others.filter (· ∈ items)

/-- The elements of the first list that are in the second, in the order of the first. -/
def keepAll (items others : DistinctList α) : DistinctList α :=
  items.filter (· ∈ others)

/-- The elements of the first list that are not in the second. -/
def sdiff (items others : DistinctList α) : DistinctList α :=
  items.filter (· ∉ others)

/-- The elements of exactly one of two lists: those of the first, then those of the second. -/
def symmDiff (items others : DistinctList α) : DistinctList α :=
  (items.sdiff others).union (others.sdiff items)

/-- Puts an element in when it is absent and takes it out when it is present. -/
def toggle (items : DistinctList α) (a : α) : DistinctList α :=
  if a ∈ items then items.erase a else items.insert a

def eraseAll (items others : DistinctList α) : DistinctList α :=
  others.toList.foldl erase items

def toggleAll (items others : DistinctList α) : DistinctList α :=
  others.toList.foldl toggle items

def popFirst? (items : DistinctList α) : Option (α × DistinctList α) :=
  match items with
  | ⟨[], _⟩ => none
  | ⟨a :: rest, distinct⟩ => some (a, ⟨rest, (List.nodup_cons.mp distinct).2⟩)

def insertNew (items : DistinctList α) (a : α) : Bool × DistinctList α :=
  (decide (a ∉ items), items.insert a)

def erasePresent (items : DistinctList α) (a : α) : Bool × DistinctList α :=
  (decide (a ∈ items), items.erase a)

def isSubset (items others : DistinctList α) : Bool :=
  items.toList.all (· ∈ others)

/-- The two lists have the same elements, in whatever order. -/
def sameElements (items others : DistinctList α) : Bool :=
  items.isSubset others && others.isSubset items

def isDisjoint (items others : DistinctList α) : Bool :=
  items.toList.all (· ∉ others)

end DistinctList

end ModulePlan
