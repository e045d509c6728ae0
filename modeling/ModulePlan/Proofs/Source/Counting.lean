/-
How often a source file is found.

Directories may share a root, and a root may lie below another one.  A file is found once for
each directory that holds it, so not more than once where the roots are apart.  Paths are told
apart as they are written, or as they are resolved.
-/

import Mathlib.Data.List.Nodup
import ModulePlan.Proofs.Source.Discovery
import ModulePlan.Source.ReleaseGroup

namespace ModulePlan

/-! ### Paths below a root -/

namespace FilePath

/-- Is a path a root or something below it? -/
def contains (root file : FilePath) : Bool :=
  root.root = file.root && root.names.isPrefixOf file.names

theorem contains_iff {root file : FilePath} :
    root.contains file = true ↔ ∃ names, file = root.append ⟨.relative, names⟩ := by
  unfold contains
  rw [Bool.and_eq_true, decide_eq_true_eq, List.isPrefixOf_iff_prefix]
  constructor
  · intro given
    rcases given with ⟨same, names, split⟩
    refine ⟨names, ?_⟩
    cases file
    cases same
    cases split
    rfl
  · intro given
    rcases given with ⟨names, rfl⟩
    exact ⟨rfl, List.prefix_append _ _⟩

theorem contains_or_contains {left right file : FilePath} (here : left.contains file = true)
    (there : right.contains file = true) :
    left.contains right = true ∨ right.contains left = true := by
  unfold contains at *
  simp only [Bool.and_eq_true, decide_eq_true_eq, List.isPrefixOf_iff_prefix] at *
  rcases List.prefix_or_prefix_of_prefix here.2 there.2 with upper | lower
  · exact Or.inl ⟨here.1.trans there.1.symm, upper⟩
  · exact Or.inr ⟨there.1.trans here.1.symm, lower⟩

theorem follow_of_plain {names : List String} (plain : ".." ∉ names) (place : List String) :
    follow place names = place ++ names := by
  induction names generalizing place with
  | nil => exact (List.append_nil place).symm
  | cons name rest ih =>
      rw [List.mem_cons, not_or] at plain
      obtain ⟨down, plain⟩ := plain
      unfold follow
      rw [List.foldl_cons, if_neg (Ne.symm down)]
      exact (ih plain _).trans (List.append_assoc place [name] rest)

theorem resolve_append {names : List String} (plain : ".." ∉ names) (directory : List String)
    (root : FilePath) :
    (root.append ⟨.relative, names⟩).resolve directory =
      (root.resolve directory).append ⟨.relative, names⟩ := by
  have further : ∀ place,
      follow place (root.names ++ names) = follow place root.names ++ names := by
    intro place
    rw [← follow_of_plain plain (follow place root.names)]
    exact List.foldl_append
  unfold resolve placeFrom append
  simp only
  cases root.root <;> simp only [further]

end FilePath

namespace Discovery

variable {host : Host} {patterns : List String} {seen : FilePath → FilePath}

/-- Does a directory hold a file, where paths are seen in some way?  Its root must lie above the
file, and the file must be eligible below it. -/
def holds (host : Host) (patterns : List String) (seen : FilePath → FilePath)
    (directory : SourceDirectory) (file : FilePath) : Bool :=
  (seen directory.root).contains file &&
    isEligible host patterns directory (file.names.drop (seen directory.root).names.length)

/-- What leads from a root to an eligible file is seen as it is. -/
def Descends (host : Host) (patterns : List String) (seen : FilePath → FilePath)
    (directory : SourceDirectory) : Prop :=
  ∀ names ∈ eligibleNames host patterns directory,
    seen (directory.root.append ⟨.relative, names⟩) =
      (seen directory.root).append ⟨.relative, names⟩

theorem holds_iff {directory : SourceDirectory} {file : FilePath} :
    holds host patterns seen directory file = true ↔
      ∃ names ∈ eligibleNames host patterns directory,
        (seen directory.root).append ⟨.relative, names⟩ = file := by
  unfold holds
  rw [Bool.and_eq_true, FilePath.contains_iff]
  constructor
  · intro given
    rcases given with ⟨⟨names, rfl⟩, eligible⟩
    refine ⟨names, mem_eligibleNames.mpr ?_, rfl⟩
    have rest : ((seen directory.root).append ⟨.relative, names⟩).names.drop
        (seen directory.root).names.length = names := List.drop_left
    rwa [rest] at eligible
  · intro given
    rcases given with ⟨names, present, rfl⟩
    have rest : ((seen directory.root).append ⟨.relative, names⟩).names.drop
        (seen directory.root).names.length = names := List.drop_left
    rw [rest]
    exact ⟨⟨names, rfl⟩, mem_eligibleNames.mp present⟩

theorem append_injective (root : FilePath) :
    Function.Injective fun names => root.append ⟨.relative, names⟩ := by
  intro left right same
  exact List.append_cancel_left (FilePath.mk.inj same).2

/-- A directory has each file that it holds once. -/
theorem count_eligible {directory : SourceDirectory}
    (descends : Descends host patterns seen directory) (file : FilePath) :
    ((eligibleNames host patterns directory).map fun names =>
      seen (directory.root.append ⟨.relative, names⟩)).count file =
        if holds host patterns seen directory file then 1 else 0 := by
  have distinct : (eligibleNames host patterns directory).Nodup := by
    apply (rising_eligibleNames host patterns directory).imp
    intro left right rises same
    rw [same] at rises
    exact List.lt_irrefl right rises
  rw [List.map_congr_left descends,
    List.Nodup.count (distinct.map (append_injective (seen directory.root)))]
  simp only [List.mem_map, holds_iff]

/-- Of some releases, each directory has a file that it holds once. -/
theorem count_sourcesFrom {directories : List SourceDirectory}
    (descends : ∀ directory ∈ directories, Descends host patterns seen directory)
    (wanted : Int → Bool) (file : FilePath) (indexes : List (Fin directories.length)) :
    (((sourcesFrom host patterns indexes).filter (wanted ·.release)).map
      fun source => seen source.file).count file =
        (indexes.map directories.get).countP fun directory =>
          wanted (directory.release.getD noRelease) && holds host patterns seen directory file := by
  induction indexes with
  | nil => rfl
  | cons index rest ih =>
      unfold sourcesFrom at *
      rw [List.flatMap_cons, List.filter_append, List.map_append, List.count_append, ih,
        List.map_cons, List.countP_cons, Nat.add_comm, List.filter_map, List.map_map]
      congr 1
      have released : ((fun source : SourceFile directories => wanted source.release) ∘
          sourceAt index) = fun _ => wanted ((directories.get index).release.getD noRelease) :=
        rfl
      rw [released]
      cases wanted ((directories.get index).release.getD noRelease) with
      | true =>
          rw [List.filter_true]
          exact count_eligible (descends _ (List.get_mem directories index)) file
      | false =>
          rw [List.filter_false]
          rfl

/-! ### Ways of seeing paths -/

theorem descends_id (directory : SourceDirectory) : Descends host patterns id directory :=
  fun _ _ => rfl

theorem descends_resolve (plain : host.files.HasPlainPlaces) (directory : SourceDirectory) :
    Descends host patterns (·.resolve host.directory) directory := by
  intro names present
  apply FilePath.resolve_append
  have eligible := mem_eligibleNames.mp present
  unfold isEligible at eligible
  split at eligible
  · cases eligible
  · rename_i place _
    simp only [Bool.and_eq_true] at eligible
    obtain ⟨content, listed⟩ := FileTree.hasFile_iff.mp eligible.1.1.2
    intro dots
    exact plain _ (List.mem_map_of_mem listed) (List.mem_append_right place dots)

end Discovery

/-- Where elements exclude one another and one is chosen, it is the only one. -/
theorem countP_eq_one {α : Type} {chosen : α → Bool} {apart : α → α → Prop} {elements : List α}
    (separate : elements.Pairwise apart)
    (excludes : ∀ left right, apart left right → chosen left = true → chosen right = false)
    (some : ∃ element ∈ elements, chosen element = true) : elements.countP chosen = 1 := by
  induction elements with
  | nil =>
      rcases some with ⟨element, impossible, _⟩
      cases impossible
  | cons element rest ih =>
      obtain ⟨away, separate⟩ := List.pairwise_cons.mp separate
      rw [List.countP_cons]
      cases here : chosen element with
      | true =>
          have others : rest.countP chosen = 0 := by
            rw [List.countP_eq_zero]
            intro other later
            rw [excludes element other (away other later) here]
            exact Bool.false_ne_true
          rw [others, if_pos rfl]
      | false =>
          obtain ⟨other, present, taken⟩ := some
          have later : other ∈ rest := by
            rcases List.mem_cons.mp present with rfl | later
            · rw [here] at taken
              cases taken
            · exact later
          rw [ih separate ⟨other, later, taken⟩, if_neg Bool.false_ne_true]

end ModulePlan
