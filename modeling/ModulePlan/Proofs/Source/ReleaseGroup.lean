/-
The groups of source files.

A group is what its own files come to: it takes note of the directory of each of them, and a
directory that is noted already makes no difference.  What a group says about the outputs of
its modules is the first directory of each root, and of those the first of each module.
-/

import Mathlib.Data.List.Basic
import ModulePlan.Proofs.DistinctList
import ModulePlan.Proofs.KeyedList
import ModulePlan.Source.ReleaseGroup

namespace ModulePlan

namespace ReleaseGroup

/-! ### Taking note of directories -/

theorem noteDirectory_again (group : ReleaseGroup) (directory : SourceDirectory) :
    (group.noteDirectory directory).noteDirectory directory = group.noteDirectory directory := by
  have noted : (group.noteDirectory directory).roots.get? directory.moduleName =
      some (((group.roots.get? directory.moduleName).getD .empty).insert directory.root) := by
    unfold noteDirectory
    rw [KeyedList.get?_alter, if_pos rfl]
  have inside : directory.root ∈
      ((group.roots.get? directory.moduleName).getD .empty).insert directory.root :=
    (DistinctList.mem_insert _ _ _).mpr (Or.inr rfl)
  have roots : (group.noteDirectory directory).roots.alter directory.moduleName
      (fun present => (present.getD .empty).insert directory.root) =
        (group.noteDirectory directory).roots :=
    KeyedList.alter_of_get? noted (DistinctList.insert_of_mem inside)
  have held : (group.noteDirectory directory).directories.get? directory.root =
      some ((group.directories.get? directory.root).getD directory) := by
    unfold noteDirectory KeyedList.insertNew
    rw [KeyedList.get?_alter, if_pos rfl]
  have directories :
      (group.noteDirectory directory).directories.insertNew directory.root directory =
        (group.noteDirectory directory).directories :=
    KeyedList.alter_of_get? held rfl
  exact congrArg₂ (fun roots directories =>
    { group.noteDirectory directory with roots, directories }) roots directories

def noteAll (group : ReleaseGroup) (directories : List SourceDirectory) : ReleaseGroup :=
  directories.foldl noteDirectory group

theorem roots_noteAll (group : ReleaseGroup) (directories : List SourceDirectory) :
    (group.noteAll directories).roots =
      directories.foldl
        (fun roots directory => roots.alter directory.moduleName fun present =>
          (present.getD .empty).insert directory.root) group.roots := by
  unfold noteAll
  induction directories generalizing group with
  | nil => rfl
  | cons directory rest ih => exact ih (group.noteDirectory directory)

theorem directories_noteAll (group : ReleaseGroup) (directories : List SourceDirectory) :
    (group.noteAll directories).directories =
      directories.foldl
        (fun noted directory => noted.insertNew directory.root directory) group.directories := by
  unfold noteAll
  induction directories generalizing group with
  | nil => rfl
  | cons directory rest ih => exact ih (group.noteDirectory directory)

theorem release_noteAll (group : ReleaseGroup) (directories : List SourceDirectory) :
    (group.noteAll directories).release = group.release := by
  unfold noteAll
  induction directories generalizing group with
  | nil => rfl
  | cons directory rest ih => exact ih (group.noteDirectory directory)

/-! ### The files of a group -/

variable {directories : List SourceDirectory}

theorem noteAll_concat (group : ReleaseGroup) (earlier : List SourceDirectory)
    (directory : SourceDirectory) :
    group.noteAll (earlier ++ [directory]) = (group.noteAll earlier).noteDirectory directory := by
  unfold noteAll
  rw [List.foldl_append, List.foldl_cons, List.foldl_nil]

private theorem noteAll_again {sources : List (SourceFile directories)}
    {source : SourceFile directories}
    (latest : sources.getLast?.map (·.index.val) = some source.index.val)
    (group : ReleaseGroup) :
    (group.noteAll (sources.map (·.directory))).noteDirectory source.directory =
      group.noteAll (sources.map (·.directory)) := by
  obtain ⟨last, isLast, index⟩ := Option.map_eq_some_iff.mp latest
  obtain ⟨earlier, rfl⟩ := List.getLast?_eq_some_iff.mp isLast
  have same : last.directory = source.directory :=
    congrArg (fun index => directories[index]) (Fin.ext index)
  rw [List.map_append, List.map_singleton, noteAll_concat, same, noteDirectory_again]

/-- A group is what its files come to: that it looks at a directory only when it changes makes
no difference. -/
theorem foldl_add (release : Int) (sources : List (SourceFile directories)) :
    sources.foldl add { release := release } =
      { noteAll { release := release } (sources.map (·.directory)) with
        files := sources.map (·.file)
        latest := sources.getLast?.map (·.index.val) } := by
  -- From behind, as the group remembers the directory of the last file only.
  induction sources using List.reverseRecOn with
  | nil => rfl
  | append_singleton sources source ih =>
      rw [List.foldl_append, List.foldl_cons, List.foldl_nil, ih, List.map_append,
        List.map_append, List.map_singleton, List.map_singleton, noteAll_concat,
        List.getLast?_concat, Option.map_some]
      unfold add
      by_cases latest : sources.getLast?.map (·.index.val) = some source.index.val
      · rw [if_pos latest, noteAll_again latest, latest]
      · rw [if_neg latest]
        rfl

end ReleaseGroup

/-! ### Grouping -/

variable {directories : List SourceDirectory}

private theorem get?_foldl_addToGroup (sources : List (SourceFile directories)) (release : Int) :
    (sources.foldl addToGroup .empty).get? release =
      if sources.filter (·.release = release) = [] then none
      else
        some ((sources.filter (·.release = release)).foldl ReleaseGroup.add
          { release := release }) :=
  KeyedList.get?_gather SourceFile.release (fun release => ({ release := release } : ReleaseGroup))
    ReleaseGroup.add sources release

private theorem mem_groupByRelease_iff {sources : List (SourceFile directories)}
    {group : ReleaseGroup} :
    group ∈ groupByRelease sources ↔
      ∃ release, (sources.foldl addToGroup .empty).get? release = some group := by
  unfold groupByRelease
  rw [← KeyedList.mem_values_iff]
  unfold KeyedList.values
  simp only [List.mem_map, List.mem_mergeSort]

/-- There is a group for each release that files have, and it is what these files come to. -/
theorem mem_groupByRelease {sources : List (SourceFile directories)} {group : ReleaseGroup} :
    group ∈ groupByRelease sources ↔
      sources.filter (·.release = group.release) ≠ [] ∧
        group = (sources.filter (·.release = group.release)).foldl ReleaseGroup.add
          { release := group.release } := by
  simp only [mem_groupByRelease_iff, get?_foldl_addToGroup]
  constructor
  · intro given
    rcases given with ⟨release, found⟩
    split at found
    · cases found
    · rename_i some
      have same : ((sources.filter (·.release = release)).foldl ReleaseGroup.add
          { release := release }).release = release := by
        rw [ReleaseGroup.foldl_add]
        exact ReleaseGroup.release_noteAll _ _
      cases found
      rw [same]
      exact ⟨some, rfl⟩
  · intro given
    rcases given with ⟨some, same⟩
    refine ⟨group.release, ?_⟩
    rw [if_neg some, ← same]

/-! ### Output directories -/

namespace SourceDirectory

/-- The classes of a directory go where its module and its release say. -/
structure IsBelow (base : FilePath) (directory : SourceDirectory) : Prop where
  named : directory.module ≠ some ""
  output : directory.output = outputBelow base directory.module directory.release

theorem isBelow_create (root base : FilePath) (module : Option String) (release : Option Int)
    (kind : FileKind) : (create root base module release kind).IsBelow base where
  named := by
    intro empty
    obtain ⟨_, visible⟩ := Option.filter_eq_some_iff.mp empty
    exact absurd visible (by decide)
  output := rfl

variable {base : FilePath} {left right : SourceDirectory}

private theorem module_eq_of_moduleName (below : left.IsBelow base)
    (otherBelow : right.IsBelow base)
    (same : left.moduleName = right.moduleName) : left.module = right.module := by
  have named := below.named
  have otherNamed := otherBelow.named
  unfold moduleName at same
  cases module : left.module with
  | none =>
      cases other : right.module with
      | none => rfl
      | some name =>
          rw [module, other] at same
          rw [other] at otherNamed
          exact absurd (congrArg some same.symm) otherNamed
  | some name =>
      cases other : right.module with
      | none =>
          rw [module, other] at same
          rw [module] at named
          exact absurd (congrArg some same) named
      | some another =>
          rw [module, other] at same
          exact congrArg some same

private theorem names_join {name : String} (plain : FilePath.ofText name = ⟨.relative, [name]⟩)
    (path : FilePath) : (path.join name).names = path.names ++ [name] := by
  unfold FilePath.join FilePath.append
  rw [plain]

/-- Classes without a release go elsewhere than those of release zero. -/
private theorem outputBelow_zero_ne (base : FilePath) (module : Option String) :
    outputBelow base module (some 0) ≠ outputBelow base module none := by
  intro same
  have names := congrArg (fun path : FilePath => path.names.length) same
  unfold outputBelow at names
  have number : toString (0 : Int) = "0" := by decide
  simp only [number] at names
  rw [names_join (by decide), names_join (by decide), names_join (by decide)] at names
  simp at names

/-- In one group, two directories of a module have one output exactly if they have one
release. -/
theorem output_eq_iff (below : left.IsBelow base) (otherBelow : right.IsBelow base)
    (sameModule : left.moduleName = right.moduleName)
    (sameGroup : left.release.getD noRelease = right.release.getD noRelease) :
    left.output = right.output ↔ left.release = right.release := by
  have module := module_eq_of_moduleName below otherBelow sameModule
  rw [below.output, otherBelow.output, module]
  constructor
  · intro same
    cases release : left.release with
    | none =>
        cases other : right.release with
        | none => rfl
        | some number =>
            rw [release, other] at same sameGroup
            have zero : 0 = number := sameGroup
            rw [← zero] at same
            exact absurd same.symm (outputBelow_zero_ne base right.module)
    | some number =>
        cases other : right.release with
        | none =>
            rw [release, other] at same sameGroup
            have zero : number = 0 := sameGroup
            rw [zero] at same
            exact absurd same (outputBelow_zero_ne base right.module)
        | some another =>
            rw [release, other] at sameGroup
            exact congrArg some sameGroup
  · intro same
    rw [same]

end SourceDirectory

namespace ReleaseGroup

/-- Does a directory stand first among those with its root? -/
def IsFirst (noted : List SourceDirectory) (directory : SourceDirectory) : Prop :=
  noted.find? (·.root = directory.root) = some directory

instance (noted : List SourceDirectory) (directory : SourceDirectory) :
    Decidable (IsFirst noted directory) :=
  inferInstanceAs (Decidable (_ = _))

/-- The modules of a group are those of the directories that it took note of. -/
theorem mem_keys_roots_noteAll (release : Int) (noted : List SourceDirectory) (module : String) :
    module ∈ (noteAll { release := release } noted).roots.keys ↔
      ∃ directory ∈ noted, directory.moduleName = module := by
  have keys := KeyedList.mem_keys_foldl_alter noted SourceDirectory.moduleName
    (fun directory (present : Option (DistinctList FilePath)) =>
      (present.getD .empty).insert directory.root) .empty module
  rw [roots_noteAll, keys, List.mem_map]
  exact or_iff_right List.not_mem_nil

/-- The directories that a group keeps are the first ones. -/
theorem mem_values_noteAll (release : Int) (noted : List SourceDirectory)
    (directory : SourceDirectory) :
    directory ∈ (noteAll { release := release } noted).directories.values ↔
      IsFirst noted directory := by
  have found : ∀ root, (noteAll { release := release } noted).directories.get? root =
      noted.find? (·.root = root) := by
    intro root
    have first := KeyedList.get?_foldl_insertNew noted SourceDirectory.root id .empty root
    rw [Option.map_id] at first
    rw [directories_noteAll]
    exact first
  rw [KeyedList.mem_values_iff]
  simp only [found]
  constructor
  · intro given
    rcases given with ⟨root, first⟩
    have same : directory.root = root := by
      simpa using List.find?_some first
    rw [← same] at first
    exact first
  · intro first
    exact ⟨directory.root, first⟩

theorem get?_outputs (group : ReleaseGroup) (module : String) :
    group.outputs.get? module =
      (group.directories.values.find? (·.moduleName = module)).map (·.output) :=
  KeyedList.get?_foldl_insertNew group.directories.values SourceDirectory.moduleName
    SourceDirectory.output .empty module

theorem mem_keys_outputs (group : ReleaseGroup) (module : String) :
    module ∈ group.outputs.keys ↔
      ∃ directory ∈ group.directories.values, directory.moduleName = module := by
  rw [KeyedList.mem_keys_iff]
  simp only [get?_outputs]
  constructor
  · intro given
    rcases given with ⟨output, found⟩
    obtain ⟨directory, isFirst, _⟩ := Option.map_eq_some_iff.mp found
    exact ⟨directory, List.mem_of_find?_eq_some isFirst, by simpa using List.find?_some isFirst⟩
  · intro given
    rcases given with ⟨directory, present, named⟩
    have some : (group.directories.values.find? (·.moduleName = module)).isSome = true := by
      rw [List.find?_isSome]
      exact ⟨directory, present, decide_eq_true named⟩
    obtain ⟨found, isFirst⟩ := Option.isSome_iff_exists.mp some
    refine ⟨found.output, ?_⟩
    rw [isFirst]
    rfl

/-- The directories of the files of a group, in the order of the files. -/
def notedBy (sources : List (SourceFile directories)) (group : ReleaseGroup) :
    List SourceDirectory :=
  (sources.filter (·.release = group.release)).map (·.directory)

/-- Does each module of some directories have a root that no other module had before? -/
def HaveFirst (noted : List SourceDirectory) : Prop :=
  ∀ directory ∈ noted, ∃ first, IsFirst noted first ∧
    first.moduleName = directory.moduleName

section Group

variable {base : FilePath} {sources : List (SourceFile directories)} {group : ReleaseGroup}

/-- A group is what its own files come to. -/
theorem group_eq (present : group ∈ groupByRelease sources) :
    group =
      { noteAll { release := group.release } (notedBy sources group) with
        files := (sources.filter (·.release = group.release)).map (·.file)
        latest := (sources.filter (·.release = group.release)).getLast?.map (·.index.val) } := by
  have whole := (mem_groupByRelease.mp present).2
  rw [foldl_add] at whole
  exact whole

theorem mem_roots_iff (present : group ∈ groupByRelease sources) (module : String) :
    module ∈ group.roots.keys ↔
      ∃ directory ∈ notedBy sources group, directory.moduleName = module := by
  rw [congrArg roots (group_eq present)]
  exact mem_keys_roots_noteAll group.release (notedBy sources group) module

theorem mem_directories_iff (present : group ∈ groupByRelease sources)
    (directory : SourceDirectory) :
    directory ∈ group.directories.values ↔
      IsFirst (notedBy sources group) directory := by
  rw [congrArg ReleaseGroup.directories (group_eq present)]
  exact mem_values_noteAll group.release (notedBy sources group) directory

theorem mem_outputs_iff (present : group ∈ groupByRelease sources) (module : String) :
    module ∈ group.outputs.keys ↔
      ∃ first, IsFirst (notedBy sources group) first ∧
        first.moduleName = module := by
  rw [mem_keys_outputs]
  simp only [mem_directories_iff present]

/-- The output of a module is that of one of its first directories. -/
theorem first_of_outputs (present : group ∈ groupByRelease sources) {module : String}
    {output : FilePath} (found : group.outputs.get? module = some output) :
    ∃ first ∈ notedBy sources group, first.moduleName = module ∧ first.output = output := by
  rw [get?_outputs] at found
  obtain ⟨first, isFirst, same⟩ := Option.map_eq_some_iff.mp found
  have there := (mem_directories_iff present first).mp (List.mem_of_find?_eq_some isFirst)
  exact ⟨first, List.mem_of_find?_eq_some there, by simpa using List.find?_some isFirst, same⟩

theorem mem_outputs_iff_mem_roots (present : group ∈ groupByRelease sources) :
    (∀ module, module ∈ group.outputs.keys ↔ module ∈ group.roots.keys) ↔
      HaveFirst (notedBy sources group) := by
  simp only [mem_outputs_iff present, mem_roots_iff present]
  constructor
  · intro same directory among
    exact (same directory.moduleName).mpr ⟨directory, among, rfl⟩
  · intro haveFirst module
    constructor
    · intro given
      rcases given with ⟨first, isFirst, named⟩
      exact ⟨first, List.mem_of_find?_eq_some isFirst, named⟩
    · intro given
      rcases given with ⟨directory, among, rfl⟩
      exact haveFirst directory among

private theorem output_eq_iff_of_noted
    (created : ∀ directory ∈ directories, ∃ root module release kind,
      directory = .create root base module release kind)
    {left right : SourceDirectory} (among : left ∈ notedBy sources group)
    (others : right ∈ notedBy sources group) (named : left.moduleName = right.moduleName) :
    left.output = right.output ↔ left.release = right.release := by
  have below : ∀ directory ∈ notedBy sources group,
      directory.IsBelow base ∧ directory.release.getD noRelease = group.release := by
    intro directory among
    obtain ⟨source, given, rfl⟩ := List.mem_map.mp among
    obtain ⟨root, module, release, kind, made⟩ :=
      created source.directory (List.getElem_mem _)
    have sameGroup : source.release = group.release := by
      simpa using (List.mem_filter.mp given).2
    refine ⟨?_, sameGroup⟩
    rw [made]
    exact SourceDirectory.isBelow_create root base module release kind
  exact SourceDirectory.output_eq_iff (below left among).1 (below right others).1 named
    ((below left among).2.trans (below right others).2.symm)

/-- A group says for each of its files the output of the file's directory exactly if each of its
modules has a root that no other module had before, and no module has both files of release zero
and files without a release.  It has an output for each of its modules exactly if the former is
so. -/
theorem outputs_agree_iff
    (created : ∀ directory ∈ directories, ∃ root module release kind,
      directory = .create root base module release kind)
    (present : group ∈ groupByRelease sources) :
    let own := sources.filter (·.release = group.release)
    let noted := notedBy sources group
    group.files = own.map (·.file) ∧
    ((∀ source ∈ own,
        group.outputs.get? source.directory.moduleName = some source.directory.output) ↔
      HaveFirst noted ∧ ∀ left ∈ noted, ∀ right ∈ noted,
        left.moduleName = right.moduleName → left.release = right.release) ∧
    ((∀ module, module ∈ group.outputs.keys ↔ module ∈ group.roots.keys) ↔
      HaveFirst noted) := by
  intro own noted
  refine ⟨congrArg files (group_eq present), ⟨?_, ?_⟩,
    mem_outputs_iff_mem_roots present⟩
  · intro agree
    have agreed : ∀ directory ∈ noted,
        group.outputs.get? directory.moduleName = some directory.output := by
      intro directory among
      obtain ⟨source, given, rfl⟩ := List.mem_map.mp among
      exact agree source given
    refine ⟨?_, ?_⟩
    · intro directory among
      exact (mem_outputs_iff present _).mp (KeyedList.mem_keys_of_get? (agreed directory among))
    · intro left among right others named
      have same := agreed left among
      rw [named, agreed right others, Option.some.injEq] at same
      exact (output_eq_iff_of_noted created among others named).mp same.symm
  · intro given source among
    rcases given with ⟨haveFirst, releases⟩
    have inside : source.directory ∈ noted := List.mem_map_of_mem among
    obtain ⟨output, found⟩ := KeyedList.mem_keys_iff.mp
      ((mem_outputs_iff present _).mpr (haveFirst source.directory inside))
    obtain ⟨first, there, named, same⟩ := first_of_outputs present found
    have release := releases first there source.directory inside named
    rw [found, ← same, (output_eq_iff_of_noted created there inside named).mpr release]

end Group

/-- Two modules that share a root; the second has another one, also for release zero. -/
def sharedDirectories : List SourceDirectory :=
  [.create ⟨.relative, ["src"]⟩ ⟨.relative, ["out"]⟩ (some "a") none .source,
    .create ⟨.relative, ["other"]⟩ ⟨.relative, ["out"]⟩ (some "b") none .source,
    .create ⟨.relative, ["src"]⟩ ⟨.relative, ["out"]⟩ (some "b") none .source,
    .create ⟨.relative, ["other"]⟩ ⟨.relative, ["out"]⟩ (some "b") (some 0) .source]

private theorem sharedDirectories_created : ∀ directory ∈ sharedDirectories,
    ∃ root module release kind,
      directory = .create root ⟨.relative, ["out"]⟩ module release kind := by
  intro directory present
  simp only [sharedDirectories, List.mem_cons, List.not_mem_nil, or_false] at present
  rcases present with rfl | rfl | rfl | rfl
  all_goals exact ⟨_, _, _, _, rfl⟩

def sharedSource (index : Fin 4) : SourceFile sharedDirectories :=
  ⟨sharedDirectories[index].root.join "A.java", index⟩

def agreeingSources : List (SourceFile sharedDirectories) :=
  [sharedSource 0, sharedSource 1, sharedSource 2]

/-- A root may be shared by a module that has another root of its own. -/
theorem outputs_agree_iff_shared : ∃ group ∈ groupByRelease agreeingSources,
    group.files = agreeingSources.map (·.file) ∧
      ∀ source ∈ agreeingSources,
        group.outputs.get? source.directory.moduleName = some source.directory.output := by
  let group := agreeingSources.foldl add { release := 0 }
  have own : agreeingSources.filter (·.release = group.release) = agreeingSources := by
    decide +kernel
  have noted : notedBy agreeingSources group = agreeingSources.map (·.directory) := by
    unfold notedBy
    rw [own]
  have present : group ∈ groupByRelease agreeingSources := by
    rw [mem_groupByRelease, own]
    exact ⟨List.cons_ne_nil _ _, rfl⟩
  have holds := outputs_agree_iff sharedDirectories_created present
  simp only [own, noted] at holds
  refine ⟨group, present, holds.1, holds.2.1.mpr ⟨?_, by decide⟩⟩
  intro directory among
  have modules : directory.moduleName = "a" ∨ directory.moduleName = "b" := by
    revert directory
    decide
  rcases modules with named | named
  · exact ⟨(sharedSource 0).directory, by decide, named.symm⟩
  · exact ⟨(sharedSource 1).directory, by decide, named.symm⟩

/-- A module whose only root was another module's before gets no output, and of the files of
release zero and those without a release only one kind goes where its directory says. -/
theorem outputs_disagree :
    (∃ group ∈ groupByRelease [sharedSource 0, sharedSource 2],
      group.roots.keys = ["a", "b"] ∧ group.outputs.keys = ["a"] ∧
        group.outputs.get? (sharedSource 2).directory.moduleName = none) ∧
    ∃ group ∈ groupByRelease [sharedSource 1, sharedSource 3],
      group.files = [(sharedSource 1).file, (sharedSource 3).file] ∧
        group.outputs.get? (sharedSource 3).directory.moduleName ≠
          some (sharedSource 3).directory.output := by
  decide +kernel

end ReleaseGroup

end ModulePlan
