/-
What discovery finds, and when it finds anything.

If every exclude pattern is a text, only a root that cannot be looked at stands in the way.  Then
the source files of a directory are its eligible files, in the order of their names.
-/

import ModulePlan.Proofs.FileTree
import ModulePlan.Proofs.Host
import ModulePlan.Proofs.Report
import ModulePlan.Source.Discovery

namespace ModulePlan.Discovery

/-! ### Text patterns -/

def isExcludedBy (patterns : List String) (names : List String) : Bool :=
  patterns.any (Glob.accepts · (Text.joinFields "/" names))

theorem isExcluded_texts (patterns : List String) (path : String) :
    isExcluded path (patterns.map .text) = .ok (patterns.any (Glob.accepts · path)) := by
  induction patterns with
  | nil => rfl
  | cons pattern rest ih =>
      rw [List.map_cons, isExcluded, List.any_cons]
      cases Glob.accepts pattern path with
      | true => rfl
      | false => exact ih

theorem dropExcluded_texts (patterns : List String) (files : List (List String)) :
    dropExcluded (patterns.map .text) files = .ok (files.filter (!isExcludedBy patterns ·)) := by
  induction files with
  | nil => rfl
  | cons names rest ih =>
      unfold dropExcluded
      rw [isExcluded_texts, ih, List.filter_cons]
      unfold isExcludedBy
      cases patterns.any (Glob.accepts · (Text.joinFields "/" names)) <;> rfl

/-! ### The files of one directory -/

/-- The names below the root that lead to the source files of a directory. -/
def eligibleNames (host : Host) (patterns : List String) (directory : SourceDirectory) :
    List (List String) :=
  match host.rootPlace? directory.root with
  | none => []
  | some place =>
    ((host.files.filesBelow place).filter (hasSuffix directory.kind.suffix)).filter
      (!isExcludedBy patterns ·)

theorem result_filesOf (host : Host) (directory : SourceDirectory) (patterns : List String) :
    (filesOf host directory (patterns.map .text)).result =
      (host.isDirectory directory.root).map fun _ =>
        (eligibleNames host patterns directory).map fun names =>
          directory.root.append ⟨.relative, names⟩ := by
  unfold filesOf eligibleNames
  rw [Report.result_bind, Report.result_ofExcept]
  cases there : host.isDirectory directory.root with
  | error fault => rfl
  | ok isThere =>
      rw [exceptBind_ok]
      cases isThere with
      | false =>
          have nowhere : host.rootPlace? directory.root = none := by
            unfold Host.rootPlace?
            rw [there]
          simp only [nowhere]
          rfl
      | true =>
          obtain ⟨place, found, placed⟩ := Host.find_of_isDirectory there
          simp only [found, placed]
          rw [Report.result_bind, Report.result_ofExcept, dropExcluded_texts]
          rfl

/-- Is a file, given by the names that lead to it from the root, a source file of a directory?
It must be there and fit the kind of the directory, and its path below the root may fit no
pattern. -/
def isEligible (host : Host) (patterns : List String) (directory : SourceDirectory)
    (names : List String) : Bool :=
  match host.rootPlace? directory.root with
  | none => false
  | some place =>
    names ≠ [] && (host.files.at? (place ++ names)).any (·.isFile) &&
      hasSuffix directory.kind.suffix names && !isExcludedBy patterns names

theorem mem_eligibleNames {host : Host} {patterns : List String} {directory : SourceDirectory}
    {names : List String} :
    names ∈ eligibleNames host patterns directory ↔
      isEligible host patterns directory names = true := by
  unfold eligibleNames isEligible
  cases host.rootPlace? directory.root with
  | none => simp
  | some place =>
      simp only [List.mem_filter, FileTree.mem_filesBelow, Bool.and_eq_true, decide_eq_true_eq]

theorem rising_eligibleNames (host : Host) (patterns : List String)
    (directory : SourceDirectory) :
    (eligibleNames host patterns directory).Pairwise (· < ·) := by
  unfold eligibleNames
  cases host.rootPlace? directory.root with
  | none => exact List.Pairwise.nil
  | some place =>
      exact ((FileTree.rising_filesBelow host.files place).sublist
        List.filter_sublist).sublist List.filter_sublist

/-! ### Directory after directory -/

/-- The source file that some names lead to from the root of a directory. -/
def sourceAt {directories : List SourceDirectory} (index : Fin directories.length)
    (names : List String) : SourceFile directories :=
  ⟨(directories.get index).root.append ⟨.relative, names⟩, index⟩

/-- The source files of some directories, each directory told by its place. -/
def sourcesFrom (host : Host) (patterns : List String) {directories : List SourceDirectory}
    (indexes : List (Fin directories.length)) : List (SourceFile directories) :=
  indexes.flatMap fun index =>
    (eligibleNames host patterns (directories.get index)).map (sourceAt index)

theorem result_sourcesAt (host : Host) (patterns : List String)
    {directories : List SourceDirectory} (indexes : List (Fin directories.length)) :
    (sourcesAt host (patterns.map .text) indexes).result =
      (indexes.mapM fun index => host.isDirectory (directories.get index).root).map fun _ =>
        sourcesFrom host patterns indexes := by
  induction indexes with
  | nil => rfl
  | cons index rest ih =>
      rw [sourcesAt, Report.result_bind, result_filesOf, List.mapM_cons]
      simp only [Report.result_bind, ih]
      cases host.isDirectory (directories.get index).root with
      | error fault => rfl
      | ok there =>
          cases rest.mapM fun index => host.isDirectory (directories.get index).root with
          | error fault => rfl
          | ok others =>
              unfold sourcesFrom
              rw [List.flatMap_cons]
              simp only [Except.map, exceptBind_ok, List.map_map]
              rfl

theorem result_sources (host : Host) (directories : List SourceDirectory)
    (patterns : List String) :
    (sources host directories (patterns.map .text)).result =
      (directories.mapM fun directory => host.isDirectory directory.root).map fun _ =>
        sourcesFrom host patterns (List.finRange directories.length) := by
  have asked : (List.finRange directories.length).mapM
      (fun index => host.isDirectory (directories.get index).root) =
        directories.mapM fun directory => host.isDirectory directory.root := by
    rw [← congrArg (List.mapM _) (List.map_get_finRange directories), List.mapM_map]
    rfl
  exact (result_sourcesAt host patterns _).trans (congrArg (Except.map _) asked)

def AreTexts (excludes : List Document.Value) : Prop :=
  ∀ exclude ∈ excludes, ∃ pattern, exclude = .text pattern

theorem AreTexts.exists_patterns {excludes : List Document.Value} (texts : AreTexts excludes) :
    ∃ patterns : List String, excludes = patterns.map .text := by
  induction excludes with
  | nil => exact ⟨[], rfl⟩
  | cons exclude rest ih =>
      obtain ⟨⟨pattern, rfl⟩, later⟩ := List.forall_mem_cons.mp texts
      obtain ⟨patterns, rfl⟩ := ih later
      exact ⟨pattern :: patterns, rfl⟩

theorem sources_completes_iff {excludes : List Document.Value} (texts : AreTexts excludes)
    (host : Host) (directories : List SourceDirectory) :
    (∃ found, (sources host directories excludes).result = .ok found) ↔
      ∀ directory ∈ directories, ∃ there, host.isDirectory directory.root = .ok there := by
  obtain ⟨patterns, rfl⟩ := texts.exists_patterns
  rw [result_sources, ← mapM_completes_iff]
  cases directories.mapM fun directory => host.isDirectory directory.root with
  | error fault => simp [Except.map]
  | ok there => simp [Except.map]

end ModulePlan.Discovery
