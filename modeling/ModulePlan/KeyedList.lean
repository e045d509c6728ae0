/-
Lists of values under distinct keys, in the order in which the keys came in.

Giving a key a new value leaves the key where it stands; a key without a value so far
stands last.
-/

namespace ModulePlan

/-- Pairs of a key and a value that hold no key twice. -/
structure KeyedList (κ ν : Type) where
  entries : List (κ × ν)
  keys_nodup : (entries.map Prod.fst).Nodup := by simp

namespace KeyedList

variable {κ ν : Type}

def empty : KeyedList κ ν where
  entries := []

instance : Inhabited (KeyedList κ ν) := ⟨empty⟩

def keys (table : KeyedList κ ν) : List κ :=
  table.entries.map Prod.fst

def values (table : KeyedList κ ν) : List ν :=
  table.entries.map Prod.snd

def size (table : KeyedList κ ν) : Nat :=
  table.entries.length

variable [DecidableEq κ]

instance [DecidableEq ν] : DecidableEq (KeyedList κ ν)
  | ⟨left, _⟩, ⟨right, _⟩ =>
    if same : left = right then isTrue (by cases same; rfl)
    else isFalse (fun equal => same (congrArg entries equal))

def get? (table : KeyedList κ ν) (key : κ) : Option ν :=
  table.entries.lookup key

def alterEntries (key : κ) (change : Option ν → ν) : List (κ × ν) → List (κ × ν)
  | [] => [(key, change none)]
  | (other, value) :: rest =>
    if other = key then (other, change (some value)) :: rest
    else (other, value) :: alterEntries key change rest

omit [DecidableEq κ] in
private theorem nodup_concat {keys : List κ} {key : κ} (distinct : keys.Nodup)
    (absent : key ∉ keys) : (keys ++ [key]).Nodup := by
  rw [List.nodup_append]
  refine ⟨distinct, by simp, ?_⟩
  intro a present b same equal
  rw [List.mem_singleton] at same
  subst same
  subst equal
  exact absent present

/-- The keys stay as they are when the key is among them, and the key stands last when not. -/
theorem map_fst_alterEntries (key : κ) (change : Option ν → ν) (entries : List (κ × ν)) :
    (alterEntries key change entries).map Prod.fst =
      if key ∈ entries.map Prod.fst then entries.map Prod.fst
      else entries.map Prod.fst ++ [key] := by
  induction entries with
  | nil => simp [alterEntries]
  | cons entry rest ih =>
    obtain ⟨other, value⟩ := entry
    unfold alterEntries
    by_cases same : other = key
    · simp [same]
    · rw [if_neg same, List.map_cons, ih]
      by_cases later : key ∈ rest.map Prod.fst
      · have here : key ∈ ((other, value) :: rest).map Prod.fst := by
          rw [List.map_cons]
          exact List.mem_cons_of_mem _ later
        rw [if_pos later, if_pos here, List.map_cons]
      · have nowhere : key ∉ ((other, value) :: rest).map Prod.fst := by
          rw [List.map_cons, List.mem_cons]
          intro given
          rcases given with equal | present
          · exact same equal.symm
          · exact later present
        rw [if_neg later, if_neg nowhere, List.map_cons, List.cons_append]

/-- Gives a key the value computed from the one it has, in its place or at the end. -/
def alter (table : KeyedList κ ν) (key : κ) (change : Option ν → ν) : KeyedList κ ν where
  entries := alterEntries key change table.entries
  keys_nodup := by
    rw [map_fst_alterEntries]
    by_cases present : key ∈ table.entries.map Prod.fst
    · rw [if_pos present]
      exact table.keys_nodup
    · rw [if_neg present]
      exact nodup_concat table.keys_nodup present

def insert (table : KeyedList κ ν) (key : κ) (value : ν) : KeyedList κ ν :=
  table.alter key fun _ => value

def insertNew (table : KeyedList κ ν) (key : κ) (value : ν) : KeyedList κ ν :=
  table.alter key fun present => present.getD value

/-- The keyed list of some pairs; of several values of one key the last counts. -/
def ofList (pairs : List (κ × ν)) : KeyedList κ ν :=
  pairs.foldl (fun table pair => table.insert pair.1 pair.2) empty

def erase (table : KeyedList κ ν) (key : κ) : KeyedList κ ν where
  entries := table.entries.filter (·.1 ≠ key)
  keys_nodup := table.keys_nodup.sublist (List.filter_sublist.map Prod.fst)

end KeyedList

end ModulePlan
