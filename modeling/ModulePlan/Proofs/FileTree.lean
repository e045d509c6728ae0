/-
File trees: what they gain and what they list.

A file that is put into a directory, where nothing stands so far, is the only difference to
what was there.  So a path that led somewhere still leads there, and a path leads somewhere
else than before only if it leads to such a file.  The files below a place are listed in the
order of their names, each of them once.
-/

import ModulePlan.FileTree
import ModulePlan.Proofs.KeyedList

namespace ModulePlan

def Node.isFile : Node → Bool
  | .file _ => true
  | .directory => false

namespace FileTree

/-! ### One file -/

private theorem isAbove_iff {upper lower : List String} :
    isAbove upper lower = true ↔ upper <+: lower ∧ upper.length < lower.length := by
  unfold isAbove
  rw [Bool.and_eq_true, List.isPrefixOf_iff_prefix, decide_eq_true_eq]

/-- What lies above the place of a file lies at or above its directory. -/
private theorem prefix_of_isAbove_concat {upper place : List String} {name : String}
    (above : isAbove upper (place ++ [name]) = true) : upper <+: place := by
  obtain ⟨start, shorter⟩ := isAbove_iff.mp above
  rw [List.length_append, List.length_singleton] at shorter
  exact List.prefix_of_prefix_length_le start (List.prefix_append place [name]) (by omega)

/-- Is a place the root, or does it lie above a listed place? -/
private def isStem (tree : FileTree) (place : List String) : Bool :=
  place = [] || tree.nodes.keys.any (isAbove place)

private theorem at?_eq (tree : FileTree) (place : List String) :
    tree.at? place =
      match tree.nodes.get? place with
      | some node => some node
      | none => if tree.isStem place then some .directory else none :=
  rfl

/-- A place at or above a directory is listed itself or lies above a listed place. -/
private theorem isStem_of_prefix {tree : FileTree} {place upper : List String}
    (inside : tree.at? place = some .directory) (start : upper <+: place)
    (unlisted : tree.nodes.get? upper = none) : tree.isStem upper = true := by
  unfold isStem
  rw [Bool.or_eq_true, decide_eq_true_eq, List.any_eq_true]
  cases listed : tree.nodes.get? place with
  | some node =>
      have lower : upper.length < place.length := by
        apply Nat.lt_of_le_of_ne start.length_le
        intro same
        rw [start.eq_of_length same, listed] at unlisted
        cases unlisted
      exact Or.inr ⟨place, KeyedList.mem_keys_of_get? listed, isAbove_iff.mpr ⟨start, lower⟩⟩
  | none =>
      rw [at?_eq, listed] at inside
      have stem : tree.isStem place = true := by
        cases sure : tree.isStem place with
        | true => rfl
        | false =>
            rw [sure] at inside
            cases inside
      unfold isStem at stem
      rw [Bool.or_eq_true, decide_eq_true_eq, List.any_eq_true] at stem
      rcases stem with rfl | ⟨key, present, above⟩
      · exact Or.inl (List.prefix_nil.mp start)
      · obtain ⟨below, shorter⟩ := isAbove_iff.mp above
        refine Or.inr ⟨key, present, isAbove_iff.mpr ⟨start.trans below, ?_⟩⟩
        exact Nat.lt_of_le_of_lt start.length_le shorter

/-- Only the place of the file that is put into a directory stands for something new. -/
theorem at?_put (tree : FileTree) {place : List String}
    (inside : tree.at? place = some .directory) (name : String) (node : Node)
    (other : List String) :
    (tree.put (place ++ [name]) node).at? other =
      if other = place ++ [name] then some node else tree.at? other := by
  have looked : (tree.put (place ++ [name]) node).nodes.get? other =
      if other = place ++ [name] then some node else tree.nodes.get? other :=
    KeyedList.get?_insert tree.nodes (place ++ [name]) other node
  rw [at?_eq, at?_eq, looked]
  by_cases same : other = place ++ [name]
  · rw [if_pos same, if_pos same]
  · rw [if_neg same, if_neg same]
    cases listed : tree.nodes.get? other with
    | some found => rfl
    | none =>
        have keys : (tree.put (place ++ [name]) node).nodes.keys = tree.nodes.keys ∨
            (tree.put (place ++ [name]) node).nodes.keys =
              tree.nodes.keys ++ [place ++ [name]] := by
          have altered := KeyedList.keys_alter tree.nodes (place ++ [name]) fun _ => node
          split at altered
          · exact Or.inl altered
          · exact Or.inr altered
        have stems : (tree.put (place ++ [name]) node).isStem other = tree.isStem other := by
          rcases keys with unchanged | longer
          · unfold isStem
            rw [unchanged]
          · unfold isStem
            rw [longer, List.any_append, List.any_cons, List.any_nil, Bool.or_false,
              ← Bool.or_assoc]
            cases above : isAbove other (place ++ [name]) with
            | false => rw [Bool.or_false]
            | true =>
                have stem := isStem_of_prefix inside (prefix_of_isAbove_concat above) listed
                unfold isStem at stem
                rw [stem, Bool.true_or]
        simp only [stems]

/-! ### Following paths -/

theorem walk_concat (tree : FileTree) (here names : List String) {name : String}
    (down : name ≠ "..") :
    tree.walk here (names ++ [name]) =
      match tree.walk here names with
      | .error lost => .error lost
      | .ok (_, .file _) => .error .notDirectory
      | .ok (place, .directory) =>
        if longestName < name.utf8ByteSize then .error .tooLong
        else
          match tree.at? (place ++ [name]) with
          | none => .error .missing
          | some node => .ok (place ++ [name], node) := by
  induction names generalizing here with
  | nil =>
      simp only [List.nil_append, walk, if_neg down]
      split
      · rfl
      · cases tree.at? (here ++ [name]) with
        | none => rfl
        | some node =>
            cases node with
            | directory => rfl
            | file content => rfl
  | cons first rest ih =>
      rw [List.cons_append, walk, walk]
      have more : ¬ rest ++ [name] = [] := by simp
      split
      · exact ih here.dropLast
      · split
        · rfl
        · cases tree.at? (here ++ [first]) with
          | none => rfl
          | some node =>
              cases node with
              | directory => exact ih (here ++ [first])
              | file content =>
                  by_cases last : rest = []
                  · simp only [if_pos last]
                  · simp only [if_neg last]

/-- The second tree has these files beside what the first one has. -/
structure Gains (before after : FileTree) (fresh : List String → Option Content) : Prop where
  absent : ∀ {place content}, fresh place = some content → before.at? place = none
  stands : ∀ place, after.at? place =
    match fresh place with
    | some content => some (.file content)
    | none => before.at? place

section Gains

variable {before after : FileTree} {fresh : List String → Option Content}

/-- A path that leads somewhere leads there still; one that leads nowhere may lead to a file
that is put in, or stop at one. -/
theorem Gains.walk (gains : before.Gains after fresh) (here names : List String) :
    after.walk here names = before.walk here names ∨
      (before.walk here names = .error .missing ∧
        (after.walk here names = .error .notDirectory ∨
          ∃ place content, fresh place = some content ∧
            after.walk here names = .ok (place, .file content))) := by
  induction names generalizing here with
  | nil => exact Or.inl rfl
  | cons name rest ih =>
      rw [FileTree.walk, FileTree.walk]
      split
      · exact ih here.dropLast
      · split
        · exact Or.inl rfl
        · rw [gains.stands]
          cases new : fresh (here ++ [name]) with
          | some content =>
              rw [gains.absent new]
              refine Or.inr ⟨rfl, ?_⟩
              by_cases last : rest = []
              · simp only [if_pos last]
                exact Or.inr ⟨here ++ [name], content, new, rfl⟩
              · simp only [if_neg last]
                exact Or.inl trivial
          | none =>
              cases before.at? (here ++ [name]) with
              | none => exact Or.inl rfl
              | some node =>
                  cases node with
                  | directory => exact ih (here ++ [name])
                  | file content => exact Or.inl rfl

theorem Gains.find (gains : before.Gains after fresh) (directory : List String)
    (path : FilePath) :
    after.find directory path = before.find directory path ∨
      (before.find directory path = .error .missing ∧
        (after.find directory path = .error .notDirectory ∨
          ∃ place content, fresh place = some content ∧
            after.find directory path = .ok (place, .file content))) := by
  unfold FileTree.find
  split
  · exact Or.inl rfl
  · exact gains.walk _ path.names

theorem Gains.walk_of_ok (gains : before.Gains after fresh) {here names place : List String}
    {node : Node} (found : before.walk here names = .ok (place, node)) :
    after.walk here names = .ok (place, node) := by
  rcases gains.walk here names with same | ⟨lost, _⟩
  · rw [same, found]
  · rw [found] at lost
    cases lost

theorem Gains.find_of_ok (gains : before.Gains after fresh) {directory place : List String}
    {path : FilePath} {node : Node} (found : before.find directory path = .ok (place, node)) :
    after.find directory path = .ok (place, node) := by
  rcases gains.find directory path with same | ⟨lost, _⟩
  · rw [same, found]
  · rw [found] at lost
    cases lost

theorem Gains.walk_directory (gains : before.Gains after fresh) {here names place : List String}
    (found : after.walk here names = .ok (place, .directory)) :
    before.walk here names = .ok (place, .directory) := by
  rcases gains.walk here names with same | ⟨_, stopped | ⟨_, _, _, file⟩⟩
  · rw [← same, found]
  · rw [stopped] at found
    cases found
  · rw [file] at found
    cases found

end Gains

/-! ### The files below a place -/

private theorem lt_of_not_lt {α : Type} [LT α] [Std.Trichotomous ((· < ·) : α → α → Prop)]
    {left right : α} (different : left ≠ right) (ordered : ¬ right < left) : left < right :=
  Classical.byContradiction fun stays =>
    different (Std.Trichotomous.trichotomous left right stays ordered)

theorem namesLe_iff {left right : List String} :
    FilePath.namesLe left right = true ↔ ¬ right < left := by
  induction left generalizing right with
  | nil => simp [FilePath.namesLe]
  | cons name rest ih =>
      cases right with
      | nil => simp [FilePath.namesLe]
      | cons other others =>
          rw [FilePath.namesLe, List.cons_lt_cons_iff]
          by_cases same : name = other
          · rw [if_pos same, ih, same]
            simp
          · rw [if_neg same, decide_eq_true_eq, or_iff_left fun given => same given.1.symm]
            exact ⟨String.lt_asymm, lt_of_not_lt same⟩

/-- No listed place has two dots for a name. -/
def HasPlainPlaces (tree : FileTree) : Prop :=
  ∀ place ∈ tree.nodes.keys, ".." ∉ place

/-- The names that lead from a place to a file below it. -/
def namesBelow? (place : List String) (entry : List String × Node) : Option (List String) :=
  match entry.2 with
  | .file _ =>
    if isAbove place entry.1 then some (entry.1.drop place.length) else none
  | .directory => none

theorem namesBelow?_eq_some {place names : List String} {entry : List String × Node} :
    namesBelow? place entry = some names ↔
      names ≠ [] ∧ ∃ content, entry = (place ++ names, .file content) := by
  obtain ⟨location, node⟩ := entry
  cases node with
  | directory => simp [namesBelow?]
  | file content =>
      unfold namesBelow?
      simp only
      rw [Option.ite_none_right_eq_some, isAbove_iff, Option.some.injEq]
      constructor
      · intro given
        rcases given with ⟨⟨⟨rest, rfl⟩, longer⟩, same⟩
        rw [List.drop_left] at same
        rcases same with rfl
        refine ⟨?_, content, rfl⟩
        rintro rfl
        simp at longer
      · intro given
        rcases given with ⟨some, other, same⟩
        cases same
        refine ⟨⟨List.prefix_append place names, ?_⟩, List.drop_left⟩
        rw [List.length_append]
        exact Nat.lt_add_of_pos_right (List.length_pos_iff.mpr some)

theorem filesBelow_perm (tree : FileTree) (place : List String) :
    (tree.filesBelow place).Perm (tree.nodes.entries.filterMap (namesBelow? place)) := by
  exact List.mergeSort_perm (tree.nodes.entries.filterMap (namesBelow? place)) FilePath.namesLe

theorem hasFile_iff {tree : FileTree} {location : List String} :
    (tree.at? location).any (·.isFile) = true ↔
      ∃ content, (location, .file content) ∈ tree.nodes.entries := by
  rw [Option.any_eq_true]
  constructor
  · intro given
    rcases given with ⟨node, stands, file⟩
    cases node with
    | directory => cases file
    | file content =>
        refine ⟨content, ?_⟩
        unfold at? at stands
        split at stands
        · rename_i node listed
          cases stands
          exact KeyedList.mem_entries_of_get? listed
        · split at stands
          · cases stands
          · cases stands
  · intro given
    rcases given with ⟨content, present⟩
    refine ⟨.file content, ?_, rfl⟩
    unfold at?
    rw [KeyedList.get?_of_mem_entries present]

theorem mem_filesBelow {tree : FileTree} {place names : List String} :
    names ∈ tree.filesBelow place ↔
      names ≠ [] ∧ (tree.at? (place ++ names)).any (·.isFile) = true := by
  rw [(filesBelow_perm tree place).mem_iff, List.mem_filterMap, hasFile_iff]
  simp only [namesBelow?_eq_some]
  constructor
  · intro given
    rcases given with ⟨entry, present, some, content, rfl⟩
    exact ⟨some, content, present⟩
  · intro given
    rcases given with ⟨some, content, present⟩
    exact ⟨_, present, some, content, rfl⟩

theorem nodup_filesBelow (tree : FileTree) (place : List String) :
    (tree.filesBelow place).Nodup := by
  rw [(filesBelow_perm tree place).nodup_iff]
  have distinct : tree.nodes.entries.Pairwise fun left right => left.1 ≠ right.1 :=
    List.pairwise_map.mp tree.nodes.keys_nodup
  refine distinct.filterMap _ ?_
  intro left right different names found others again
  obtain ⟨_, content, rfl⟩ := namesBelow?_eq_some.mp found
  obtain ⟨_, other, rfl⟩ := namesBelow?_eq_some.mp again
  intro same
  exact different (congrArg (place ++ ·) same)

theorem rising_filesBelow (tree : FileTree) (place : List String) :
    (tree.filesBelow place).Pairwise (· < ·) := by
  have sorted : (tree.filesBelow place).Pairwise fun left right => ¬ right < left := by
    apply (List.pairwise_mergeSort _ _ _).imp namesLe_iff.mp
    · intro first second third
      simp only [namesLe_iff]
      exact List.le_trans
    · intro left right
      rw [Bool.or_eq_true, namesLe_iff, namesLe_iff]
      exact List.le_total left right
  apply (sorted.and (nodup_filesBelow tree place)).imp
  intro left right given
  exact lt_of_not_lt given.2 given.1

end FileTree

end ModulePlan
