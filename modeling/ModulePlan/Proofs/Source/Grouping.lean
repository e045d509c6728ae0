/-
Source files parted into groups.

There is one group for each release that files have, the least release first, and it holds the
files of its release in their order.  Its modules and their roots stand where they first occur.
A group looks at a directory only when it differs from the one before; looking at it with each
file would come to the same groups.
-/

import Mathlib.Data.List.Nodup
import ModulePlan.Proofs.Source.ReleaseGroup

namespace ModulePlan

variable {directories : List SourceDirectory}

/-! ### Groups -/

private theorem entries_foldl_addToGroup (sources : List (SourceFile directories)) :
    (sources.foldl addToGroup .empty).entries =
      (sources.map (·.release)).eraseDups.map fun release =>
        (release, (sources.filter (·.release = release)).foldl ReleaseGroup.add
          { release := release }) :=
  KeyedList.entries_gather SourceFile.release
    (fun release => ({ release := release } : ReleaseGroup)) ReleaseGroup.add sources

/-- The groups are those of the releases in order, each with what its own files come to. -/
theorem groupByRelease_eq (sources : List (SourceFile directories)) :
    groupByRelease sources =
      ((sources.map (·.release)).eraseDups.mergeSort (· ≤ ·)).map fun release =>
        (sources.filter (·.release = release)).foldl ReleaseGroup.add { release := release } := by
  unfold groupByRelease
  simp only [entries_foldl_addToGroup]
  rw [← List.map_mergeSort, List.map_map]
  · rfl
  · intro left _ right _
    rfl

theorem release_foldl_add (release : Int) (sources : List (SourceFile directories)) :
    (sources.foldl ReleaseGroup.add { release := release }).release = release := by
  rw [ReleaseGroup.foldl_add]
  exact ReleaseGroup.release_noteAll _ _

theorem releases_groupByRelease (sources : List (SourceFile directories)) :
    (groupByRelease sources).map (·.release) =
      (sources.map (·.release)).eraseDups.mergeSort (· ≤ ·) := by
  rw [groupByRelease_eq, List.map_map]
  apply List.map_id''
  intro release
  exact release_foldl_add release _

/-- The releases rise from group to group. -/
theorem releases_rise (sources : List (SourceFile directories)) :
    ((groupByRelease sources).map (·.release)).Pairwise (· < ·) := by
  let releases := (sources.map (·.release)).eraseDups
  have ascending : (releases.mergeSort (· ≤ ·)).Pairwise (· ≤ ·) := by
    apply (List.pairwise_mergeSort _ _ releases).imp
    · intro left right ordered
      exact of_decide_eq_true ordered
    · intro first second third before after
      exact decide_eq_true
        (Int.le_trans (of_decide_eq_true before) (of_decide_eq_true after))
    · intro left right
      simpa using Int.le_total left right
  have distinct : (releases.mergeSort (· ≤ ·)).Nodup := by
    apply (List.mergeSort_perm releases _).nodup_iff.mpr
    exact DistinctList.nodup_eraseDups _
  rw [releases_groupByRelease]
  apply (ascending.and distinct).imp
  intro left right given
  rcases given with ⟨ordered, different⟩
  omega

/-! ### The files of the groups -/

/-- What is parted by keys that cover it comes together again. -/
private theorem flatMap_filter_perm {α κ : Type} [DecidableEq κ] (key : α → κ) {keys : List κ}
    (distinct : keys.Nodup) {elements : List α} (covered : ∀ a ∈ elements, key a ∈ keys) :
    (keys.flatMap fun own => elements.filter (key · = own)).Perm elements := by
  induction keys generalizing elements with
  | nil =>
      have nothing : elements = [] :=
        List.eq_nil_iff_forall_not_mem.mpr fun a present => List.not_mem_nil (covered a present)
      rw [nothing]
      rfl
  | cons first rest ih =>
      obtain ⟨fresh, distinct⟩ := List.nodup_cons.mp distinct
      let others := elements.filter fun a => !decide (key a = first)
      have apart : (rest.flatMap fun own => elements.filter (key · = own)) =
          rest.flatMap fun own => others.filter (key · = own) := by
        apply List.flatMap_congr
        intro own among
        rw [List.filter_filter]
        apply List.filter_congr
        intro a _
        by_cases same : key a = own
        · have foreign : own ≠ first := by
            intro again
            rw [again] at among
            exact fresh among
          simp [same, foreign]
        · simp [same]
      have later : ∀ a ∈ others, key a ∈ rest := by
        intro a present
        obtain ⟨given, foreign⟩ := List.mem_filter.mp present
        exact (List.mem_cons.mp (covered a given)).resolve_left (by simpa using foreign)
      rw [List.flatMap_cons, apart]
      exact ((ih distinct later).append_left _).trans (List.filter_append_perm _ elements)

theorem files_foldl_add (release : Int) (sources : List (SourceFile directories)) :
    (sources.foldl ReleaseGroup.add { release := release }).files = sources.map (·.file) := by
  rw [ReleaseGroup.foldl_add]

/-- The files in the groups of a release are those with this release. -/
theorem files_of_release (sources : List (SourceFile directories)) (release : Int) :
    ((groupByRelease sources).filter (·.release = release)).flatMap (·.files) =
      (sources.filter (·.release = release)).map (·.file) := by
  have distinct : ((sources.map (·.release)).eraseDups.mergeSort (· ≤ ·)).Nodup :=
    (List.mergeSort_perm _ _).nodup_iff.mpr (DistinctList.nodup_eraseDups _)
  rw [groupByRelease_eq, List.filter_map, List.flatMap_map]
  simp only [Function.comp_def, release_foldl_add, files_foldl_add]
  rw [List.filter_eq]
  by_cases held : release ∈ (sources.map (·.release)).eraseDups.mergeSort (· ≤ ·)
  · rw [List.count_eq_one_of_mem distinct held]
    exact List.flatMap_singleton _ _
  · rw [List.count_eq_zero_of_not_mem held]
    rw [List.mem_mergeSort, List.mem_eraseDups] at held
    have nothing : sources.filter (·.release = release) = [] := by
      rw [List.filter_eq_nil_iff]
      intro source present same
      exact held (List.mem_map.mpr ⟨source, present, of_decide_eq_true same⟩)
    rw [nothing]
    rfl

theorem files_groupByRelease (sources : List (SourceFile directories)) :
    ((groupByRelease sources).flatMap (·.files)).Perm (sources.map (·.file)) := by
  have distinct : ((sources.map (·.release)).eraseDups.mergeSort (· ≤ ·)).Nodup :=
    (List.mergeSort_perm _ _).nodup_iff.mpr (DistinctList.nodup_eraseDups _)
  rw [groupByRelease_eq, List.flatMap_map]
  simp only [files_foldl_add]
  rw [← List.map_flatMap]
  apply List.Perm.map
  apply flatMap_filter_perm SourceFile.release distinct
  intro source present
  rw [List.mem_mergeSort, List.mem_eraseDups]
  exact List.mem_map_of_mem present

namespace ReleaseGroup

/-! ### Roots -/

theorem roots_noteAll_eq (release : Int) (noted : List SourceDirectory) :
    (noteAll { release := release } noted).roots.entries =
      (noted.map (·.moduleName)).eraseDups.map fun module =>
        (module, .ofList ((noted.filter (·.moduleName = module)).map (·.root))) := by
  have gathered := KeyedList.entries_gather SourceDirectory.moduleName
    (fun _ => (.empty : DistinctList FilePath))
    (fun roots directory => roots.insert directory.root) noted
  rw [roots_noteAll]
  refine gathered.trans (List.map_congr_left ?_)
  intro module _
  unfold DistinctList.ofList
  rw [List.foldl_map]

/-- The modules of a group and their roots stand where the files of the group first have them. -/
theorem roots_of_group {sources : List (SourceFile directories)} {group : ReleaseGroup}
    (present : group ∈ groupByRelease sources) :
    let own := sources.filter (·.release = group.release)
    (group.roots.entries.map fun (module, roots) => (module, roots.toList)) =
      (own.map (·.directory.moduleName)).eraseDups.map fun module =>
        (module, ((own.filter (·.directory.moduleName = module)).map
          (·.directory.root)).eraseDups) := by
  intro own
  rw [congrArg ReleaseGroup.roots (group_eq present), roots_noteAll_eq, List.map_map]
  unfold notedBy
  rw [List.map_map]
  apply List.map_congr_left
  intro module _
  simp only [Function.comp_apply, DistinctList.toList_ofList, List.filter_map, List.map_map]
  rfl

/-! ### Looking at every directory -/

/-- Takes a file in and looks at its directory, whatever the directory before was. -/
def addPlainly (group : ReleaseGroup) (source : SourceFile directories) : ReleaseGroup :=
  { group.noteDirectory source.directory with
    files := group.files ++ [source.file]
    latest := some source.index.val }

theorem foldl_addPlainly (release : Int) (sources : List (SourceFile directories)) :
    sources.foldl addPlainly { release := release } = sources.foldl add { release := release } := by
  rw [foldl_add]
  induction sources using List.reverseRecOn with
  | nil => rfl
  | append_singleton sources source ih =>
      rw [List.foldl_append, List.foldl_cons, List.foldl_nil, ih, List.map_append,
        List.map_append, List.map_singleton, List.map_singleton, noteAll_concat,
        List.getLast?_concat, Option.map_some]
      rfl

end ReleaseGroup

/-- The groups of some source files where every directory is looked at. -/
def groupPlainly (sources : List (SourceFile directories)) : List ReleaseGroup :=
  let groups := KeyedList.gather SourceFile.release
    (fun release => ({ release := release } : ReleaseGroup)) ReleaseGroup.addPlainly sources
  (groups.entries.mergeSort fun left right => left.1 ≤ right.1).map Prod.snd

theorem groupByRelease_eq_groupPlainly (sources : List (SourceFile directories)) :
    groupByRelease sources = groupPlainly sources := by
  have same : (sources.foldl addToGroup .empty).entries =
      (KeyedList.gather SourceFile.release (fun release => ({ release := release } : ReleaseGroup))
        ReleaseGroup.addPlainly sources).entries := by
    rw [KeyedList.entries_gather, entries_foldl_addToGroup]
    simp only [ReleaseGroup.foldl_addPlainly]
  unfold groupByRelease groupPlainly
  simp only [same]

/-! ### The partition -/

/-- The groups part the files by release, and keep their order and that of modules and roots.
They are what grouping comes to that looks at the directory of every file. -/
theorem groupByRelease_parts (sources : List (SourceFile directories)) :
    ((groupByRelease sources).map (·.release)).Pairwise (· < ·) ∧
    (∀ release, release ∈ (groupByRelease sources).map (·.release) ↔
      ∃ source ∈ sources, source.directory.release.getD 0 = release) ∧
    (∀ group ∈ groupByRelease sources,
      let own := sources.filter (·.directory.release.getD 0 = group.release)
      group.files ≠ [] ∧ group.files = own.map (·.file) ∧
      (group.roots.entries.map fun (module, roots) => (module, roots.toList)) =
        (own.map (·.directory.moduleName)).eraseDups.map fun module =>
          (module, ((own.filter (·.directory.moduleName = module)).map
            (·.directory.root)).eraseDups)) ∧
    groupByRelease sources = groupPlainly sources := by
  refine ⟨releases_rise sources, ?_, ?_, groupByRelease_eq_groupPlainly sources⟩
  · intro release
    rw [releases_groupByRelease, List.mem_mergeSort, List.mem_eraseDups, List.mem_map]
    rfl
  · intro group present own
    have files : group.files = own.map (·.file) :=
      congrArg ReleaseGroup.files (ReleaseGroup.group_eq present)
    have some : own ≠ [] := (mem_groupByRelease.mp present).1
    refine ⟨?_, files, ReleaseGroup.roots_of_group present⟩
    rw [files]
    exact fun empty => some (List.map_eq_nil_iff.mp empty)

end ModulePlan
