/-
The order of a distinct list over a history.

Elements are put into a list and taken out of it, one by one or together with those of another
list.  A ledger follows the same calls with a plain set and notes each arrival: each time that an
element which was absent becomes present.  The list has the members of the set, in the order of
their last arrivals, and answers every call as the set does.
-/

import Mathlib.Data.Finset.SDiff
import Mathlib.Data.List.Dedup
import ModulePlan.Proofs.DistinctList

namespace ModulePlan.DistinctList

/-- What a list is joined with: another list, or the list itself. -/
inductive Operand (α : Type) where
  | list (others : DistinctList α)
  | itself

/-- What is done with a list. -/
inductive Call (α : Type) where
  | add (a : α)
  | discard (a : α)
  | remove (a : α)
  | addNew (a : α)
  | removePresent (a : α)
  | pop
  | clear
  | unite (operand : Operand α)
  | keep (operand : Operand α)
  | subtract (operand : Operand α)
  | toggle (operand : Operand α)

/-- What a call answers.  An element that should be there may be missing. -/
inductive Answer (α : Type) where
  | done
  | truth (value : Bool)
  | element (a : α)
  | missing

variable {α : Type} [DecidableEq α]

omit [DecidableEq α] in
/-- The list that an operand stands for. -/
def Operand.standsFor (items : DistinctList α) : Operand α → DistinctList α
  | .list others => others
  | .itself => items

/-- A list that is taken from itself, or toggled by itself, is emptied. -/
def perform (items : DistinctList α) : Call α → Answer α × DistinctList α
  | .add a => (.done, items.insert a)
  | .discard a => (.done, items.erase a)
  | .remove a => if a ∈ items then (.done, items.erase a) else (.missing, items)
  | .addNew a => (.truth (items.insertNew a).1, (items.insertNew a).2)
  | .removePresent a => (.truth (items.erasePresent a).1, (items.erasePresent a).2)
  | .pop =>
    match items.popFirst? with
    | some (a, rest) => (.element a, rest)
    | none => (.missing, items)
  | .clear => (.done, empty)
  | .unite operand => (.done, items.union (operand.standsFor items))
  | .keep operand => (.done, items.keepAll (operand.standsFor items))
  | .subtract (.list others) => (.done, items.eraseAll others)
  | .toggle (.list others) => (.done, items.toggleAll others)
  | .subtract .itself | .toggle .itself => (.done, empty)

def run (items : DistinctList α) (calls : List (Call α)) : DistinctList α :=
  calls.foldl (fun items call => (items.perform call).2) items

def answers (items : DistinctList α) : List (Call α) → List (Answer α)
  | [] => []
  | call :: rest => (items.perform call).1 :: (items.perform call).2.answers rest

/-! ### The ledger -/

/-- The elements that a call puts in, one after another. -/
def Call.given : Call α → List α
  | .add a | .addNew a => [a]
  | .unite (.list others) | .toggle (.list others) => others.toList
  | _ => []

/-- The members of a set, and the elements that arrived in it, one entry for each arrival. -/
structure Ledger (α : Type) where
  members : Finset α := ∅
  arrivals : List α := []

namespace Ledger

/-- The members in the order of their last arrivals.  Of equal entries the last one is kept. -/
def order (ledger : Ledger α) : List α :=
  ledger.arrivals.dedup.filter (· ∈ ledger.members)

/-- The ledger when the set has become another one.  Of the elements that were put in, those
arrive that were absent and are present now. -/
def become (ledger : Ledger α) (members : Finset α) (given : List α) : Ledger α where
  members := members
  arrivals := ledger.arrivals ++ given.filter fun a => a ∉ ledger.members ∧ a ∈ members

/-- The set that an operand stands for. -/
def standsFor (ledger : Ledger α) : Operand α → Finset α
  | .list others => others.toList.toFinset
  | .itself => ledger.members

/-- The set after a call. -/
def after (ledger : Ledger α) : Call α → Finset α
  | .add a | .addNew a => ledger.members ∪ {a}
  | .discard a | .remove a | .removePresent a => ledger.members \ {a}
  | .pop => ledger.members \ (ledger.order.take 1).toFinset
  | .clear => ∅
  | .unite operand => ledger.members ∪ ledger.standsFor operand
  | .keep operand => ledger.members ∩ ledger.standsFor operand
  | .subtract operand => ledger.members \ ledger.standsFor operand
  | .toggle operand =>
    (ledger.members \ ledger.standsFor operand) ∪ (ledger.standsFor operand \ ledger.members)

/-- What a call answers by the set.  The member that is popped is the one that arrived first. -/
def answer (ledger : Ledger α) : Call α → Answer α
  | .remove a => if a ∈ ledger.members then .done else .missing
  | .addNew a => .truth (decide (a ∉ ledger.members))
  | .removePresent a => .truth (decide (a ∈ ledger.members))
  | .pop =>
    match ledger.order.head? with
    | some a => .element a
    | none => .missing
  | _ => .done

def perform (ledger : Ledger α) (call : Call α) : Ledger α :=
  ledger.become (ledger.after call) call.given

def run (ledger : Ledger α) (calls : List (Call α)) : Ledger α :=
  calls.foldl perform ledger

def answers (ledger : Ledger α) : List (Call α) → List (Answer α)
  | [] => []
  | call :: rest => ledger.answer call :: (ledger.perform call).answers rest

/-- The ledger of a list that was made by adding elements one after another. -/
def start (elements : List α) : Ledger α :=
  ({} : Ledger α).run (elements.map .add)

end Ledger

/-! ### Arrivals -/

/-- What arrives again counts by its last arrival. -/
theorem dedup_append_of_nodup {later : List α} (distinct : later.Nodup) (earlier : List α) :
    (earlier ++ later).dedup = earlier.dedup.filter (· ∉ later) ++ later := by
  induction earlier with
  | nil => exact List.dedup_eq_self.mpr distinct
  | cons a rest ih =>
      rw [List.cons_append]
      by_cases again : a ∈ rest
      · rw [List.dedup_cons_of_mem (List.mem_append_left later again),
          List.dedup_cons_of_mem again, ih]
      · rw [List.dedup_cons_of_notMem again, List.filter_cons]
        by_cases returns : a ∈ later
        · rw [List.dedup_cons_of_mem (List.mem_append_right rest returns), ih]
          simp [returns]
        · have absent : a ∉ rest ++ later := by simp [again, returns]
          rw [List.dedup_cons_of_notMem absent, ih]
          simp [returns]

/-- Members that stay keep their order, and arrivals stand behind them. -/
theorem Ledger.order_become {ledger : Ledger α} {members : Finset α} {given : List α}
    (distinct : given.Nodup)
    (explained : ∀ a ∈ members, a ∈ ledger.members ∨ a ∈ given) :
    (ledger.become members given).order =
      ledger.order.filter (· ∈ members) ++
        given.filter fun a => a ∉ ledger.members ∧ a ∈ members := by
  let fresh := given.filter fun a => a ∉ ledger.members ∧ a ∈ members
  have kept : ∀ a, (a ∉ fresh ∧ a ∈ members) ↔ a ∈ ledger.members ∧ a ∈ members := by
    intro a
    have here := explained a
    simp only [fresh, List.mem_filter, decide_eq_true_eq]
    tauto
  have arrived : fresh.filter (· ∈ members) = fresh := by
    refine List.filter_eq_self.mpr fun a present => ?_
    simp only [fresh, List.mem_filter, decide_eq_true_eq] at present ⊢
    exact present.2.2
  unfold Ledger.order Ledger.become
  rw [dedup_append_of_nodup (distinct.filter _), List.filter_append, arrived,
    List.filter_filter, List.filter_filter]
  congr 1
  refine List.filter_congr fun a _ => ?_
  rw [Bool.and_comm, ← Bool.decide_and, Bool.and_comm, ← Bool.decide_and]
  exact decide_eq_decide.mpr (kept a)

/-! ### Many elements at a time -/

omit [DecidableEq α] in
theorem mem_filter {items : DistinctList α} {test : α → Bool} {a : α} :
    a ∈ items.filter test ↔ a ∈ items ∧ test a = true :=
  List.mem_filter

theorem toList_putAll {elements : List α} (distinct : elements.Nodup) (items : DistinctList α) :
    (elements.foldl insert items).toList = items.toList ++ elements.filter (· ∉ items) := by
  induction elements generalizing items with
  | nil => simp
  | cons a rest ih =>
      obtain ⟨unique, distinct⟩ := List.nodup_cons.mp distinct
      have same : rest.filter (· ∉ items.insert a) = rest.filter (· ∉ items) := by
        refine List.filter_congr fun b present => ?_
        have different : b ≠ a := fun same => unique (same ▸ present)
        simp [different]
      rw [List.foldl_cons, ih distinct, same, toList_insert, List.filter_cons]
      by_cases present : a ∈ items <;> simp [present]

theorem toList_eraseAll (items others : DistinctList α) :
    (items.eraseAll others).toList = items.toList.filter (· ∉ others) := by
  have folded : ∀ (elements : List α) (items : DistinctList α),
      (elements.foldl erase items).toList = items.toList.filter (· ∉ elements) := by
    intro elements
    induction elements with
    | nil => simp
    | cons a rest ih =>
        intro items
        rw [List.foldl_cons, ih, toList_erase, List.filter_filter]
        refine List.filter_congr fun b _ => ?_
        simp [Bool.and_comm]
  exact folded others.toList items

theorem toList_toggleAll (items others : DistinctList α) :
    (items.toggleAll others).toList =
      items.toList.filter (· ∉ others) ++ others.toList.filter (· ∉ items) := by
  have folded : ∀ (elements : List α), elements.Nodup → ∀ items : DistinctList α,
      (elements.foldl toggle items).toList =
        items.toList.filter (· ∉ elements) ++ elements.filter (· ∉ items) := by
    intro elements
    induction elements with
    | nil => simp
    | cons a rest ih =>
        intro distinct items
        obtain ⟨unique, distinct⟩ := List.nodup_cons.mp distinct
        have apart : ∀ b ∈ rest, b ≠ a := fun b present same => unique (same ▸ present)
        rw [List.foldl_cons, ih distinct, List.filter_cons]
        unfold toggle
        by_cases present : a ∈ items
        · have same : rest.filter (· ∉ items.erase a) = rest.filter (· ∉ items) := by
            refine List.filter_congr fun b later => ?_
            simp [apart b later]
          rw [if_pos present, same, toList_erase, List.filter_filter,
            if_neg (by simpa using present)]
          congr 1
          refine List.filter_congr fun b _ => ?_
          simp [Bool.and_comm]
        · have same : rest.filter (· ∉ items.insert a) = rest.filter (· ∉ items) := by
            refine List.filter_congr fun b later => ?_
            simp [apart b later]
          have others : items.toList.filter (· ∉ rest) = items.toList.filter (· ∉ a :: rest) := by
            refine List.filter_congr fun b here => ?_
            have different : b ≠ a := fun same => present (same ▸ here)
            simp [different]
          rw [if_neg present, same, toList_insert, if_neg present, List.filter_append, others,
            if_pos (by simpa using present)]
          simp [unique]
  exact folded others.toList others.nodup items

/-! ### Joining in place -/

theorem union_eq_ofList (items others : DistinctList α) :
    items.union others = ofList (items.toList ++ others.toList) := by
  have itself : ofList items.toList = items := empty_union items
  rw [ofList_append, itself]
  rfl

theorem eraseAll_eq_sdiff (items others : DistinctList α) :
    items.eraseAll others = items.sdiff others :=
  eq_of_toList (toList_eraseAll items others)

theorem toggleAll_eq_symmDiff (items others : DistinctList α) :
    items.toggleAll others = items.symmDiff others := by
  apply eq_of_toList
  have joined : (items.symmDiff others).toList =
      (items.sdiff others).toList ++ (others.sdiff items).toList.filter (· ∉ items.sdiff others) :=
    toList_putAll (others.sdiff items).nodup _
  have apart : (others.sdiff items).toList.filter (· ∉ items.sdiff others) =
      (others.sdiff items).toList := by
    refine List.filter_eq_self.mpr fun a present => decide_eq_true fun here => ?_
    have outside := List.of_mem_filter present
    exact of_decide_eq_true outside (List.mem_of_mem_filter here)
  rw [toList_toggleAll, joined, apart]
  rfl

theorem sdiff_self (items : DistinctList α) : items.sdiff items = empty := by
  apply eq_of_toList
  exact List.filter_eq_nil_iff.mpr fun a present absent => of_decide_eq_true absent present

/-- Joining a list in place leaves it as the new list that the operation makes, save that what
two lists share stands in the order of the list in place and in that of the other in the new. -/
structure JoinsInPlace (items : DistinctList α) (operand : Operand α) : Prop where
  unite : (items.perform (.unite operand)).2 = items.union (operand.standsFor items) ∧
    items.union (operand.standsFor items) =
      ofList (items.toList ++ (operand.standsFor items).toList)
  subtract : (items.perform (.subtract operand)).2 = items.sdiff (operand.standsFor items)
  toggle : (items.perform (.toggle operand)).2 = items.symmDiff (operand.standsFor items)
  keep : ∀ a, a ∈ (items.perform (.keep operand)).2 ↔ a ∈ items.inter (operand.standsFor items)
  keepOrder : (items.perform (.keep operand)).2.toList.Sublist items.toList
  interOrder :
    (items.inter (operand.standsFor items)).toList.Sublist (operand.standsFor items).toList

theorem joinsInPlace (items : DistinctList α) (operand : Operand α) :
    items.JoinsInPlace operand where
  unite := ⟨rfl, union_eq_ofList items _⟩
  subtract := by
    cases operand with
    | list others => exact eraseAll_eq_sdiff items others
    | itself => exact (sdiff_self items).symm
  toggle := by
    cases operand with
    | list others => exact toggleAll_eq_symmDiff items others
    | itself =>
        rw [Operand.standsFor, symmDiff, sdiff_self]
        rfl
  keep := by
    intro a
    rw [perform, keepAll, inter, mem_filter, mem_filter, decide_eq_true_eq, decide_eq_true_eq]
    exact and_comm
  keepOrder := List.filter_sublist
  interOrder := List.filter_sublist

/-! ### What any call does to a list -/

/-- A call lets some elements stay where they are, and puts those that are given and were absent
behind them. -/
theorem exists_stays_perform (items : DistinctList α) (call : Call α) :
    ∃ stays : α → Bool, (items.perform call).2.toList =
      items.toList.filter stays ++ call.given.filter (· ∉ items) := by
  have nothing : ∀ {after : List α} {stays : α → Bool}, after = items.toList.filter stays →
      after = items.toList.filter stays ++ [].filter (· ∉ items) := by
    intro after stays same
    rw [same, List.filter_nil, List.append_nil]
  have all : items.toList = items.toList.filter fun _ => true := (List.filter_true _).symm
  have none : [] = items.toList.filter fun _ => false := (List.filter_false _).symm
  have put : ∀ {elements : List α}, elements.Nodup → (elements.foldl insert items).toList =
      items.toList.filter (fun _ => true) ++ elements.filter (· ∉ items) := by
    intro elements distinct
    rw [toList_putAll distinct, ← all]
  cases call with
  | add a => exact ⟨_, put (List.nodup_singleton a)⟩
  | discard a => exact ⟨_, nothing (toList_erase items a)⟩
  | remove a =>
      rw [perform]
      split
      · exact ⟨_, nothing (toList_erase items a)⟩
      · exact ⟨_, nothing all⟩
  | addNew a => exact ⟨_, put (List.nodup_singleton a)⟩
  | removePresent a => exact ⟨_, nothing (toList_erase items a)⟩
  | pop =>
      obtain ⟨elements, distinct⟩ := items
      cases elements with
      | nil => exact ⟨_, nothing all⟩
      | cons a rest =>
          refine ⟨(· ≠ a), nothing ?_⟩
          rw [List.filter_cons, if_neg (by simp)]
          refine (List.filter_eq_self.mpr fun b present => ?_).symm
          have different : b ≠ a := fun same => (List.nodup_cons.mp distinct).1 (same ▸ present)
          exact decide_eq_true different
  | clear => exact ⟨_, nothing none⟩
  | unite operand =>
      cases operand with
      | list others => exact ⟨_, put others.nodup⟩
      | itself =>
          have same : items.union items = items := union_of_subset fun _ present => present
          exact ⟨_, nothing ((congrArg toList same).trans all)⟩
  | keep operand => exact ⟨_, nothing rfl⟩
  | subtract operand =>
      cases operand with
      | list others => exact ⟨_, nothing (toList_eraseAll items others)⟩
      | itself => exact ⟨_, nothing none⟩
  | toggle operand =>
      cases operand with
      | list others => exact ⟨_, toList_toggleAll items others⟩
      | itself => exact ⟨_, nothing none⟩

/-- What stays keeps its place, and what comes in stands behind it in the order in which it was
put in. -/
theorem toList_perform (items : DistinctList α) (call : Call α) :
    (items.perform call).2.toList =
      items.toList.filter (· ∈ (items.perform call).2) ++
        call.given.filter fun a => a ∉ items ∧ a ∈ (items.perform call).2 := by
  obtain ⟨stays, changed⟩ := exists_stays_perform items call
  have here : ∀ a, a ∈ (items.perform call).2 ↔
      (a ∈ items ∧ stays a = true) ∨ (a ∈ call.given ∧ a ∉ items) := by
    intro a
    rw [← mem_toList, changed, List.mem_append, List.mem_filter, List.mem_filter,
      decide_eq_true_eq, mem_toList]
  have stay : items.toList.filter stays =
      items.toList.filter (· ∈ (items.perform call).2) := by
    refine List.filter_congr fun a present => Bool.eq_iff_iff.mpr ?_
    have member : a ∈ items := present
    rw [decide_eq_true_eq, here a, and_iff_right member]
    exact ⟨Or.inl, fun given => given.resolve_right fun absent => absent.2 member⟩
  have come : call.given.filter (· ∉ items) =
      call.given.filter fun a => a ∉ items ∧ a ∈ (items.perform call).2 := by
    refine List.filter_congr fun a present => decide_eq_decide.mpr ?_
    exact ⟨fun absent => ⟨absent, (here a).mpr (Or.inr ⟨present, absent⟩)⟩, And.left⟩
  rw [changed, stay, come]

/-! ### Lists and ledgers -/

omit [DecidableEq α] in
theorem nodup_given (call : Call α) : call.given.Nodup := by
  cases call with
  | add a | addNew a => exact List.nodup_singleton a
  | unite operand | toggle operand =>
      cases operand with
      | list others => exact others.nodup
      | itself => exact List.nodup_nil
  | _ => exact List.nodup_nil

/-- A list has the members of a set, in the order of their last arrivals. -/
structure Follows (items : DistinctList α) (ledger : Ledger α) : Prop where
  members : ∀ a, a ∈ items ↔ a ∈ ledger.members
  order : items.toList = ledger.order

section Step

variable {items : DistinctList α} {ledger : Ledger α}

theorem mem_standsFor (follows : Follows items ledger) (operand : Operand α) (a : α) :
    a ∈ operand.standsFor items ↔ a ∈ ledger.standsFor operand := by
  cases operand with
  | list others =>
      rw [Ledger.standsFor, List.mem_toFinset]
      exact Iff.rfl
  | itself => exact follows.members a

/-- After a call the list has the members of the set that the call makes. -/
theorem mem_perform (follows : Follows items ledger) (call : Call α) (a : α) :
    a ∈ (items.perform call).2 ↔ a ∈ ledger.after call := by
  have same := follows.members a
  cases call with
  | add b | addNew b =>
      rw [Ledger.after, Finset.mem_union, Finset.mem_singleton, ← same]
      exact mem_insert items b a
  | discard b | removePresent b =>
      rw [Ledger.after, Finset.mem_sdiff, Finset.mem_singleton, ← same]
      exact mem_erase items b a
  | remove b =>
      rw [perform, Ledger.after, Finset.mem_sdiff, Finset.mem_singleton, ← same]
      split
      · exact mem_erase items b a
      · rename_i absent
        exact ⟨fun present => ⟨present, fun equal => absent (equal ▸ present)⟩, And.left⟩
  | pop =>
      rw [Ledger.after, Finset.mem_sdiff, List.mem_toFinset, ← follows.order, ← same, perform]
      obtain ⟨elements, distinct⟩ := items
      cases elements with
      | nil => exact ⟨fun present => ⟨present, List.not_mem_nil⟩, And.left⟩
      | cons b rest =>
          have unique := (List.nodup_cons.mp distinct).1
          change a ∈ rest ↔ a ∈ b :: rest ∧ a ∉ [b]
          rw [List.mem_cons, List.mem_singleton]
          constructor
          · intro later
            exact ⟨Or.inr later, fun equal => unique (equal ▸ later)⟩
          · intro given
            exact given.1.resolve_left given.2
  | clear => exact iff_of_false (not_mem_empty a) (Finset.notMem_empty a)
  | unite operand =>
      rw [perform, Ledger.after, mem_union, Finset.mem_union, same, mem_standsFor follows]
  | keep operand =>
      rw [perform, Ledger.after, keepAll, mem_filter, Finset.mem_inter, same, decide_eq_true_eq,
        mem_standsFor follows]
  | subtract operand =>
      rw [Ledger.after, Finset.mem_sdiff, ← same, ← mem_standsFor follows]
      cases operand with
      | list others =>
          rw [perform, eraseAll_eq_sdiff, sdiff, mem_filter, decide_eq_true_eq]
          exact Iff.rfl
      | itself => exact iff_of_false (not_mem_empty a) fun given => given.2 given.1
  | toggle operand =>
      rw [Ledger.after, Finset.mem_union, Finset.mem_sdiff, Finset.mem_sdiff, ← same,
        ← mem_standsFor follows]
      cases operand with
      | list others =>
          rw [perform, toggleAll_eq_symmDiff, symmDiff, mem_union, sdiff, sdiff, mem_filter,
            mem_filter, decide_eq_true_eq, decide_eq_true_eq]
          exact Iff.rfl
      | itself =>
          refine iff_of_false (not_mem_empty a) ?_
          rintro (given | given)
          · exact given.2 given.1
          · exact given.2 given.1

theorem answer_perform (follows : Follows items ledger) (call : Call α) :
    (items.perform call).1 = ledger.answer call := by
  have same := follows.members
  cases call with
  | remove a =>
      rw [perform, Ledger.answer]
      by_cases present : a ∈ items
      · rw [if_pos present, if_pos ((same a).mp present)]
      · rw [if_neg present, if_neg (mt (same a).mpr present)]
  | addNew a => exact congrArg Answer.truth (decide_eq_decide.mpr (not_congr (same a)))
  | removePresent a => exact congrArg Answer.truth (decide_eq_decide.mpr (same a))
  | pop =>
      rw [perform, Ledger.answer, ← follows.order]
      obtain ⟨elements, distinct⟩ := items
      cases elements with
      | nil => rfl
      | cons a rest => rfl
  | subtract operand | toggle operand => cases operand <;> rfl
  | _ => rfl

theorem follows_perform (follows : Follows items ledger) (call : Call α) :
    Follows (items.perform call).2 (ledger.perform call) := by
  have members := mem_perform follows call
  refine ⟨members, ?_⟩
  have explained : ∀ a ∈ ledger.after call, a ∈ ledger.members ∨ a ∈ call.given := by
    intro a present
    have listed := mem_toList.mpr ((members a).mpr present)
    rw [toList_perform, List.mem_append, List.mem_filter, List.mem_filter] at listed
    rcases listed with stays | comes
    · exact Or.inl ((follows.members a).mp (mem_toList.mp stays.1))
    · exact Or.inr comes.1
  rw [toList_perform, Ledger.perform, Ledger.order_become (nodup_given call) explained,
    follows.order]
  simp only [members, follows.members]

end Step

theorem follows_run {items : DistinctList α} {ledger : Ledger α} (follows : Follows items ledger)
    (calls : List (Call α)) :
    Follows (items.run calls) (ledger.run calls) ∧
      items.answers calls = ledger.answers calls := by
  induction calls generalizing items ledger with
  | nil => exact ⟨follows, rfl⟩
  | cons call rest ih =>
      obtain ⟨later, told⟩ := ih (follows_perform follows call)
      refine ⟨later, ?_⟩
      rw [answers, Ledger.answers, answer_perform follows, told]

/-- A new list has the elements that it was made of, which arrived where they first occur. -/
theorem follows_start (elements : List α) : Follows (ofList elements) (Ledger.start elements) := by
  have blank : Follows (empty : DistinctList α) ({} : Ledger α) := by
    refine ⟨fun a => ?_, rfl⟩
    simp
  have made : ofList elements = empty.run (elements.map .add) := by
    rw [run, List.foldl_map]
    rfl
  rw [made]
  exact (follows_run blank _).1

/-- Where an element is missed, nothing changes. -/
theorem perform_of_missing {items : DistinctList α} {call : Call α}
    (missed : (items.perform call).1 = .missing) : (items.perform call).2 = items := by
  cases call with
  | remove a =>
      rw [perform] at missed ⊢
      split
      · rename_i present
        rw [if_pos present] at missed
        cases missed
      · rfl
  | pop =>
      obtain ⟨elements, distinct⟩ := items
      cases elements with
      | nil => rfl
      | cons a rest => cases missed
  | subtract operand | toggle operand => cases operand <;> cases missed
  | _ => cases missed

/-- Whatever was done with a list, it has no element twice and the members of the set with which
the same was done, it answered as that set does, and its elements stand in the order in which each
last went from absent to present.  A call that misses an element changes nothing, and lists are
joined in place as they are joined to new ones. -/
theorem in_order_of_arrival (elements : List α) (calls : List (Call α)) :
    let items := (ofList elements).run calls
    let ledger := (Ledger.start elements).run calls
    items.toList.Nodup ∧ (∀ a, a ∈ items ↔ a ∈ ledger.members) ∧
      (ofList elements).answers calls = (Ledger.start elements).answers calls ∧
      items.toList = ledger.order ∧
      (∀ call, (items.perform call).1 = .missing → (items.perform call).2 = items) ∧
      ∀ operand, items.JoinsInPlace operand := by
  intro items ledger
  obtain ⟨follows, told⟩ := follows_run (follows_start elements) calls
  have distinct : items.toList.Nodup := by
    rw [follows.order]
    exact (List.nodup_dedup _).filter _
  exact ⟨distinct, follows.members, told, follows.order, fun call => perform_of_missing,
    items.joinsInPlace⟩

end ModulePlan.DistinctList
