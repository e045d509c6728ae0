/-
The keys of keyed lists and what is looked up under them, after a change.

A list that is gathered key by key has each key where it first occurs, and under a key what the
elements with this key come to.
-/

import Mathlib.Data.List.Perm.Subperm
import ModulePlan.KeyedList
import ModulePlan.Proofs.DistinctList

namespace ModulePlan.KeyedList

variable {κ ν : Type} [DecidableEq κ]

private theorem lookup_cons_entry (key other : κ) (value : ν) (rest : List (κ × ν)) :
    ((key, value) :: rest).lookup other =
      if other = key then some value else rest.lookup other := by
  rw [List.lookup_cons]
  by_cases same : other = key
  · rw [if_pos same, beq_iff_eq.mpr same]
  · rw [if_neg same, beq_false_of_ne same]

private theorem lookup_alterEntries (key other : κ) (change : Option ν → ν)
    (entries : List (κ × ν)) :
    (alterEntries key change entries).lookup other =
      if other = key then some (change (entries.lookup key)) else entries.lookup other := by
  induction entries with
  | nil =>
      unfold alterEntries
      rw [lookup_cons_entry]
      rfl
  | cons entry rest ih =>
      obtain ⟨first, value⟩ := entry
      unfold alterEntries
      rw [lookup_cons_entry, lookup_cons_entry]
      by_cases here : first = key
      · subst here
        rw [if_pos rfl, if_pos rfl, lookup_cons_entry]
        by_cases same : other = first
        · rw [if_pos same, if_pos same]
        · rw [if_neg same, if_neg same, if_neg same]
      · rw [if_neg here, if_neg (Ne.symm here), lookup_cons_entry, ih]
        by_cases same : other = key
        · subst same
          rw [if_neg (Ne.symm here), if_pos rfl, if_pos rfl]
        · rw [if_neg same, if_neg same]

/-- Only the key that is given a value is looked up differently. -/
theorem get?_alter (table : KeyedList κ ν) (key other : κ) (change : Option ν → ν) :
    (table.alter key change).get? other =
      if other = key then some (change (table.get? key)) else table.get? other :=
  lookup_alterEntries key other change table.entries

theorem get?_insert (table : KeyedList κ ν) (key other : κ) (value : ν) :
    (table.insert key value).get? other = if other = key then some value else table.get? other :=
  get?_alter table key other fun _ => value

theorem keys_alter (table : KeyedList κ ν) (key : κ) (change : Option ν → ν) :
    (table.alter key change).keys =
      if key ∈ table.keys then table.keys else table.keys ++ [key] :=
  map_fst_alterEntries key change table.entries

/-- The keys, as a list that holds none twice. -/
def distinctKeys (table : KeyedList κ ν) : DistinctList κ :=
  ⟨table.keys, table.keys_nodup⟩

theorem distinctKeys_alter (table : KeyedList κ ν) (key : κ) (change : Option ν → ν) :
    (table.alter key change).distinctKeys = table.distinctKeys.insert key := by
  apply DistinctList.eq_of_toList
  rw [DistinctList.toList_insert]
  exact keys_alter table key change

theorem mem_keys_alter (table : KeyedList κ ν) (key other : κ) (change : Option ν → ν) :
    other ∈ (table.alter key change).keys ↔ other ∈ table.keys ∨ other = key := by
  rw [keys_alter]
  by_cases present : key ∈ table.keys
  · rw [if_pos present]
    constructor
    · exact Or.inl
    · intro given
      rcases given with there | rfl
      · exact there
      · exact present
  · rw [if_neg present, List.mem_append, List.mem_singleton]

theorem mem_keys_foldl_alter {α : Type} (elements : List α) (key : α → κ)
    (change : α → Option ν → ν) (table : KeyedList κ ν) (other : κ) :
    other ∈ (elements.foldl (fun table element => table.alter (key element) (change element))
      table).keys ↔ other ∈ table.keys ∨ other ∈ elements.map key := by
  induction elements generalizing table with
  | nil => simp only [List.foldl_nil, List.map_nil, List.not_mem_nil, or_false]
  | cons element rest ih =>
      rw [List.foldl_cons, ih, mem_keys_alter, List.map_cons, List.mem_cons, or_assoc]

private theorem entries_of_lookup {entries : List (κ × ν)} (distinct : (entries.map Prod.fst).Nodup)
    {value : κ → ν} (found : ∀ key ∈ entries.map Prod.fst, entries.lookup key = some (value key)) :
    entries = (entries.map Prod.fst).map fun key => (key, value key) := by
  induction entries with
  | nil => rfl
  | cons entry rest ih =>
      obtain ⟨first, held⟩ := entry
      obtain ⟨fresh, distinct⟩ := List.nodup_cons.mp distinct
      have here := found first List.mem_cons_self
      rw [lookup_cons_entry, if_pos rfl, Option.some.injEq] at here
      have later : ∀ key ∈ rest.map Prod.fst, rest.lookup key = some (value key) := by
        intro key present
        have other : key ≠ first := by
          intro same
          rcases same with rfl
          exact fresh present
        rw [← found key (List.mem_cons_of_mem _ present), lookup_cons_entry, if_neg other]
      rw [here, List.map_cons, List.map_cons, ← ih distinct later]

theorem entries_eq_map {table : KeyedList κ ν} {value : κ → ν}
    (found : ∀ key ∈ table.keys, table.get? key = some (value key)) :
    table.entries = table.keys.map fun key => (key, value key) :=
  entries_of_lookup table.keys_nodup found

theorem mem_entries_of_get? {table : KeyedList κ ν} {key : κ} {value : ν}
    (found : table.get? key = some value) : (key, value) ∈ table.entries := by
  obtain ⟨before, after, split, _⟩ := List.lookup_eq_some_iff.mp found
  rw [split]
  exact List.mem_append_right _ List.mem_cons_self

theorem mem_keys_of_get? {table : KeyedList κ ν} {key : κ} {value : ν}
    (found : table.get? key = some value) : key ∈ table.keys :=
  List.mem_map_of_mem (mem_entries_of_get? found)

theorem lookup_of_mem {entries : List (κ × ν)} (distinct : (entries.map Prod.fst).Nodup)
    {entry : κ × ν} (present : entry ∈ entries) : entries.lookup entry.1 = some entry.2 := by
  induction entries with
  | nil => cases present
  | cons first rest ih =>
      obtain ⟨fresh, distinct⟩ := List.nodup_cons.mp distinct
      rw [lookup_cons_entry]
      rcases List.mem_cons.mp present with rfl | later
      · rw [if_pos rfl]
      · have other : entry.1 ≠ first.1 := by
          intro same
          apply fresh
          rw [← same]
          exact List.mem_map_of_mem later
        rw [if_neg other]
        exact ih distinct later

theorem get?_of_mem_entries {table : KeyedList κ ν} {entry : κ × ν}
    (present : entry ∈ table.entries) : table.get? entry.1 = some entry.2 :=
  lookup_of_mem table.keys_nodup present

theorem mem_values_iff {table : KeyedList κ ν} {value : ν} :
    value ∈ table.values ↔ ∃ key, table.get? key = some value := by
  constructor
  · intro present
    obtain ⟨entry, among, rfl⟩ := List.mem_map.mp present
    exact ⟨entry.1, get?_of_mem_entries among⟩
  · intro given
    rcases given with ⟨key, found⟩
    exact List.mem_map_of_mem (mem_entries_of_get? found)

theorem mem_keys_iff {table : KeyedList κ ν} {key : κ} :
    key ∈ table.keys ↔ ∃ value, table.get? key = some value := by
  constructor
  · intro present
    obtain ⟨entry, among, rfl⟩ := List.mem_map.mp present
    exact ⟨entry.2, get?_of_mem_entries among⟩
  · intro given
    rcases given with ⟨value, found⟩
    exact mem_keys_of_get? found

/-- An entry is there already, or it is that of the key that was given a value. -/
theorem mem_entries_of_mem_alter {table : KeyedList κ ν} {key : κ} {change : Option ν → ν}
    {entry : κ × ν} (present : entry ∈ (table.alter key change).entries) :
    entry ∈ table.entries ∨ entry = (key, change (table.get? key)) := by
  have found := get?_of_mem_entries present
  rw [get?_alter] at found
  split at found
  · rename_i same
    exact Or.inr (Prod.ext same (Option.some.inj found).symm)
  · exact Or.inl (mem_entries_of_get? found)

private theorem alterEntries_of_not_mem {key : κ} {entries : List (κ × ν)}
    (absent : key ∉ entries.map Prod.fst) (change : Option ν → ν) :
    alterEntries key change entries = entries ++ [(key, change none)] := by
  induction entries with
  | nil => rfl
  | cons entry rest ih =>
      obtain ⟨first, value⟩ := entry
      rw [List.map_cons, List.mem_cons, not_or] at absent
      unfold alterEntries
      rw [if_neg (Ne.symm absent.1), ih absent.2, List.cons_append]

/-- A key that is not there yet stands last. -/
theorem entries_alter_of_not_mem {table : KeyedList κ ν} {key : κ} (absent : key ∉ table.keys)
    (change : Option ν → ν) :
    (table.alter key change).entries = table.entries ++ [(key, change none)] :=
  alterEntries_of_not_mem absent change

/-! ### Changes that change nothing -/

omit [DecidableEq κ] in
theorem eq_of_entries {left right : KeyedList κ ν} (same : left.entries = right.entries) :
    left = right := by
  cases left
  cases right
  cases same
  rfl

/-- A keyed list is told by the order of its keys and by what is looked up under them. -/
theorem eq_of_get? {left right : KeyedList κ ν} (keys : left.distinctKeys = right.distinctKeys)
    (found : ∀ key, left.get? key = right.get? key) : left = right := by
  have told : ∀ table : KeyedList κ ν,
      table.entries.map (fun entry => (entry.1, some entry.2)) =
        table.keys.map fun key => (key, table.get? key) := by
    intro table
    unfold KeyedList.keys
    rw [List.map_map]
    apply List.map_congr_left
    intro entry present
    exact congrArg (entry.1, ·) (get?_of_mem_entries present).symm
  have marked : Function.Injective fun entry : κ × ν => (entry.1, some entry.2) := by
    intro entry other same
    obtain ⟨first, second⟩ := Prod.mk.inj same
    exact Prod.ext first (Option.some.inj second)
  apply eq_of_entries
  apply List.map_injective_iff.mpr marked
  rw [told, told, show left.keys = right.keys from congrArg DistinctList.toList keys]
  exact List.map_congr_left fun key _ => congrArg (key, ·) (found key)

private theorem alterEntries_of_lookup {key : κ} {change : Option ν → ν} {value : ν}
    (same : change (some value) = value) {entries : List (κ × ν)}
    (found : entries.lookup key = some value) : alterEntries key change entries = entries := by
  induction entries with
  | nil => cases found
  | cons entry rest ih =>
      obtain ⟨first, held⟩ := entry
      rw [lookup_cons_entry] at found
      unfold alterEntries
      by_cases here : key = first
      · rw [if_pos here, Option.some.injEq] at found
        rw [if_pos here.symm, found, same]
      · rw [if_neg here] at found
        rw [if_neg (Ne.symm here), ih found]

theorem alter_of_get? {table : KeyedList κ ν} {key : κ} {change : Option ν → ν} {value : ν}
    (found : table.get? key = some value) (same : change (some value) = value) :
    table.alter key change = table := by
  apply eq_of_entries
  exact alterEntries_of_lookup same found

/-- The first value for a key counts. -/
theorem get?_foldl_insertNew {α : Type} (elements : List α) (key : α → κ) (value : α → ν)
    (table : KeyedList κ ν) (other : κ) :
    (elements.foldl (fun table element => table.insertNew (key element) (value element))
        table).get? other =
      (table.get? other).or ((elements.find? fun element => key element = other).map value) := by
  induction elements generalizing table with
  | nil => simp only [List.foldl_nil, List.find?_nil, Option.map_none, Option.or_none]
  | cons element rest ih =>
      have step : (table.insertNew (key element) (value element)).get? other =
          if other = key element then some ((table.get? (key element)).getD (value element))
          else table.get? other :=
        get?_alter table (key element) other fun present => present.getD (value element)
      rw [List.foldl_cons, ih, step, List.find?_cons]
      by_cases same : other = key element
      · subst same
        rw [if_pos rfl, decide_eq_true rfl]
        cases table.get? (key element) with
        | none => rfl
        | some held => rfl
      · rw [if_neg same, decide_eq_false (Ne.symm same)]

/-! ### Lists of pairs -/

theorem ofList_append (pairs more : List (κ × ν)) :
    ofList (pairs ++ more) =
      more.foldl (fun table pair => table.insert pair.1 pair.2) (ofList pairs) := by
  unfold ofList
  rw [List.foldl_append]

private theorem ofList_concat (pairs : List (κ × ν)) (pair : κ × ν) :
    ofList (pairs ++ [pair]) = (ofList pairs).insert pair.1 pair.2 :=
  ofList_append pairs [pair]

theorem keys_ofList (pairs : List (κ × ν)) :
    (ofList pairs).keys = (pairs.map Prod.fst).eraseDups := by
  induction pairs using List.reverseRecOn with
  | nil => rfl
  | append_singleton pairs pair ih =>
      have step := keys_alter (ofList pairs) pair.1 fun _ => pair.2
      rw [ofList_concat, List.map_append, List.map_singleton, DistinctList.eraseDups_concat]
      refine step.trans ?_
      rw [ih]
      simp only [List.mem_eraseDups]

/-- The last value for a key counts. -/
theorem get?_ofList (pairs : List (κ × ν)) (key : κ) :
    (ofList pairs).get? key = (pairs.filter (·.1 = key)).getLast?.map Prod.snd := by
  induction pairs using List.reverseRecOn with
  | nil => rfl
  | append_singleton pairs pair ih =>
      rw [ofList_concat, get?_insert, List.filter_append, List.filter_singleton]
      by_cases same : key = pair.1
      · rw [if_pos same, decide_eq_true same.symm, cond_true, List.getLast?_concat,
          Option.map_some]
      · rw [if_neg same, decide_eq_false (Ne.symm same), cond_false, List.append_nil, ih]

/-- Nothing is lost of pairs exactly if no key occurs twice among them. -/
theorem entries_ofList_iff (pairs : List (κ × ν)) :
    (ofList pairs).entries = pairs ↔ (pairs.map Prod.fst).Nodup := by
  constructor
  · intro kept
    rw [← kept]
    exact (ofList pairs).keys_nodup
  · intro distinct
    induction pairs using List.reverseRecOn with
    | nil => rfl
    | append_singleton pairs pair ih =>
        rw [List.map_append, List.map_singleton, List.nodup_append] at distinct
        have absent : pair.1 ∉ (ofList pairs).keys := by
          rw [keys_ofList, List.mem_eraseDups]
          intro present
          exact distinct.2.2 _ present _ (List.mem_singleton_self _) rfl
        rw [ofList_concat]
        exact (entries_alter_of_not_mem absent fun _ => pair.2).trans
          (congrArg (· ++ [pair]) (ih distinct.1))

/-- Nor is a value lost then, and one is lost if a key occurs twice. -/
theorem values_ofList_iff (pairs : List (κ × ν)) :
    (ofList pairs).values = pairs.map Prod.snd ↔ (pairs.map Prod.fst).Nodup := by
  constructor
  · intro kept
    have lengths : (pairs.map Prod.fst).length ≤ (ofList pairs).keys.length := by
      have same := congrArg List.length kept
      unfold values at same
      unfold KeyedList.keys
      rw [List.length_map, List.length_map] at same
      rw [List.length_map, List.length_map, same]
    have inside : (ofList pairs).keys ⊆ pairs.map Prod.fst := by
      intro key present
      rwa [keys_ofList, List.mem_eraseDups] at present
    have distinct := (ofList pairs).keys_nodup
    exact ((distinct.subperm inside).perm_of_length_le lengths).nodup_iff.mp distinct
  · intro distinct
    exact congrArg (List.map Prod.snd) ((entries_ofList_iff pairs).mpr distinct)

/-! ### Gathering -/

section Gathering

variable {α : Type} (key : α → κ) (start : κ → ν) (step : ν → α → ν) (elements : List α)

/-- Takes elements in one after another, each under its key. -/
def gather : KeyedList κ ν :=
  elements.foldl
    (fun table element => table.alter (key element) fun present =>
      step (present.getD (start (key element))) element)
    .empty

private theorem gather_concat (element : α) :
    gather key start step (elements ++ [element]) =
      (gather key start step elements).alter (key element) fun present =>
        step (present.getD (start (key element))) element := by
  unfold gather
  rw [List.foldl_append, List.foldl_cons, List.foldl_nil]

theorem keys_gather : (gather key start step elements).keys = (elements.map key).eraseDups := by
  induction elements using List.reverseRecOn with
  | nil => rfl
  | append_singleton elements element ih =>
      rw [gather_concat, keys_alter, ih, List.map_append, List.map_singleton,
        DistinctList.eraseDups_concat]
      simp only [List.mem_eraseDups]

theorem get?_gather (other : κ) :
    (gather key start step elements).get? other =
      if elements.filter (key · = other) = [] then none
      else some ((elements.filter (key · = other)).foldl step (start other)) := by
  induction elements using List.reverseRecOn with
  | nil => rfl
  | append_singleton elements element ih =>
      rw [gather_concat, get?_alter, List.filter_append]
      by_cases same : other = key element
      · have own : [element].filter (key · = other) = [element] := by
          simp [same]
        rw [if_pos same, ← same, ih, own, List.foldl_append,
          if_neg (List.append_ne_nil_of_right_ne_nil _ (List.cons_ne_nil element []))]
        by_cases first : elements.filter (key · = other) = []
        · rw [if_pos first, first]
          rfl
        · rw [if_neg first]
          rfl
      · have foreign : [element].filter (key · = other) = [] := by
          simp [Ne.symm same]
        rw [if_neg same, ih, foreign, List.append_nil]

/-- The keys stand where they first occur, each with what its own elements come to. -/
theorem entries_gather :
    (gather key start step elements).entries =
      (elements.map key).eraseDups.map fun other =>
        (other, (elements.filter (key · = other)).foldl step (start other)) := by
  rw [← keys_gather key start step]
  apply entries_eq_map
  intro other present
  rw [keys_gather, List.mem_eraseDups] at present
  obtain ⟨element, given, named⟩ := List.mem_map.mp present
  have some : elements.filter (key · = other) ≠ [] :=
    List.ne_nil_of_mem (List.mem_filter.mpr ⟨given, decide_eq_true named⟩)
  rw [get?_gather, if_neg some]

/-- Where no key occurs twice, each element stands for itself. -/
theorem entries_gather_of_nodup {elements : List α} (distinct : (elements.map key).Nodup) :
    (gather key start step elements).entries =
      elements.map fun element => (key element, step (start (key element)) element) := by
  induction elements using List.reverseRecOn with
  | nil => rfl
  | append_singleton elements element ih =>
      rw [List.map_append, List.map_singleton, List.nodup_append] at distinct
      have absent : key element ∉ (gather key start step elements).keys := by
        rw [keys_gather, List.mem_eraseDups]
        intro present
        exact distinct.2.2 _ present _ (List.mem_singleton_self _) rfl
      rw [gather_concat, entries_alter_of_not_mem absent, ih distinct.1, List.map_append]
      rfl

end Gathering

end ModulePlan.KeyedList
