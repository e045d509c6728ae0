/-
The source files of a plan.

What discovery finds goes into the groups of the releases, and nothing else does.  So a file
stands in a plan once for each directory that holds it, in the group of the directory's release.
-/

import ModulePlan.Proofs.Plan.Making
import ModulePlan.Proofs.Source.Counting
import ModulePlan.Proofs.Source.Grouping

namespace ModulePlan.Plan

open Discovery

def filesOf (plan : Plan) (release : Int) : List FilePath :=
  (plan.groups.filter (·.release = release)).flatMap (·.files)

def allFiles (plan : Plan) : List FilePath :=
  plan.groups.flatMap (·.files)

/-- Neither of two roots is the other one or above it. -/
def Apart (seen : FilePath → FilePath) (left right : SourceDirectory) : Prop :=
  (seen left.root).contains (seen right.root) = false ∧
    (seen right.root).contains (seen left.root) = false

/-- The files of a plan are those that its directories hold, as often as they are held. -/
structure HasSources (plan : Plan) (host : Host) (directories : List SourceDirectory)
    (patterns : List String) (seen : FilePath → FilePath) : Prop where
  counts : ∀ release file, ((plan.filesOf release).map seen).count file =
    directories.countP fun directory =>
      directory.release.getD 0 = release && holds host patterns seen directory file
  once : directories.Pairwise (Apart seen) →
    ∀ file, (∃ directory ∈ directories, holds host patterns seen directory file = true) →
      (plan.allFiles.map seen).count file = 1

variable {host : Host} {directories : List SourceDirectory} {patterns : List String}
  {view : Option DependencyView} {settings : PlanSettings} {plan : Plan}

theorem groups_of_make (texts : settings.excludes = patterns.map .text)
    (made : (make host directories view settings).result = .ok plan) :
    plan.groups =
      groupByRelease (sourcesFrom host patterns (List.finRange directories.length)) := by
  obtain ⟨groups, grouped, _, _, _, _, _, rfl⟩ := make_eq_ok.mp made
  unfold releaseGroups at grouped
  rw [texts, Report.result_bind, result_sources] at grouped
  cases asked : directories.mapM fun directory => host.isDirectory directory.root with
  | error fault =>
      rw [asked] at grouped
      cases grouped
  | ok there =>
      rw [asked] at grouped
      cases grouped
      rfl

theorem not_holds_of_apart {seen : FilePath → FilePath} {file : FilePath}
    {left right : SourceDirectory} (apart : Apart seen left right)
    (held : holds host patterns seen left file = true) :
    holds host patterns seen right file = false := by
  cases again : holds host patterns seen right file with
  | false => rfl
  | true =>
      unfold holds at held again
      rw [Bool.and_eq_true] at held again
      rcases FilePath.contains_or_contains held.1 again.1 with upper | lower
      · rw [apart.1] at upper
        cases upper
      · rw [apart.2] at lower
        cases lower

theorem hasSources_of_groups {seen : FilePath → FilePath}
    (descends : ∀ directory ∈ directories, Descends host patterns seen directory)
    (groups : plan.groups =
      groupByRelease (sourcesFrom host patterns (List.finRange directories.length))) :
    plan.HasSources host directories patterns seen where
  counts := by
    intro release file
    have counted := count_sourcesFrom descends (decide <| · = release) file
      (List.finRange directories.length)
    rw [List.map_get_finRange] at counted
    unfold filesOf
    rw [groups, files_of_release, List.map_map]
    exact counted
  once := by
    intro apart file held
    have counted := count_sourcesFrom descends (fun _ => true) file
      (List.finRange directories.length)
    rw [List.map_get_finRange, List.filter_true] at counted
    unfold allFiles
    rw [groups, ((files_groupByRelease _).map seen).count_eq, List.map_map]
    exact counted.trans (countP_eq_one apart (fun _ _ => not_holds_of_apart) held)

/-- Discovery neither loses nor invents files.  Directory after directory it lists the eligible
files, each once and in the order of the names that lead to them from the root; there are none
where the root is no directory.  Only a root whose path is too long to be looked at is refused.
A plan has each file in the group of a release as often as directories of this release hold it,
so once where no root is another one or above it.  This is so for paths as they are written, and
for the places that they lead to, as no file has two dots for a name. -/
theorem sources_exact (host : Host) (directories : List SourceDirectory) (patterns : List String) :
    (match (sources host directories (patterns.map .text)).result with
      | .ok found => ∃ below : Fin directories.length → List (List String),
        found = (List.finRange directories.length).flatMap
          (fun index => (below index).map fun names =>
            ⟨(directories.get index).root.append ⟨.relative, names⟩, index⟩) ∧
        ∀ index, (below index).Pairwise (· < ·) ∧ ∀ names, names ∈ below index ↔
          isEligible host patterns (directories.get index) names = true
      | .error fault => ∃ directory ∈ directories,
        host.files.find host.directory directory.root = .error .tooLong ∧
          fault = .file (.nameTooLong directory.root)) ∧
    ∀ view settings plan, settings.excludes = patterns.map .text →
      (make host directories view settings).result = .ok plan →
      plan.HasSources host directories patterns id ∧
        (host.files.HasPlainPlaces →
          plan.HasSources host directories patterns (·.resolve host.directory)) := by
  refine ⟨?_, ?_⟩
  · rw [result_sources]
    cases asked : directories.mapM fun directory => host.isDirectory directory.root with
    | error fault =>
        obtain ⟨directory, present, refused⟩ := fault_of_mapM asked
        exact ⟨directory, present, Host.tooLong_of_isDirectory refused⟩
    | ok there =>
        refine ⟨fun index => eligibleNames host patterns (directories.get index), rfl, ?_⟩
        intro index
        exact ⟨rising_eligibleNames host patterns _, fun names => mem_eligibleNames⟩
  · intro view settings plan texts made
    have groups := groups_of_make texts made
    refine ⟨hasSources_of_groups (fun directory _ => descends_id directory) groups, ?_⟩
    intro plain
    exact hasSources_of_groups (fun directory _ => descends_resolve plain directory) groups

/-- A file below two roots, one below the other. -/
def nestedHost : Host where
  files := ⟨.ofList [(["src", "sub", ".java"], .file (.bytes []))]⟩

def nestedDirectories : List SourceDirectory :=
  [.create (.ofText "src") (.ofText "out") none none .source,
    .create (.ofText "src/sub") (.ofText "out") none (some 9) .source,
    .create (.ofText "src/sub") (.ofText "out") none (some 9) .other]

def apartDirectories : List SourceDirectory :=
  [.create (.ofText "src/sub/../sub") (.ofText "out") none none .source,
    .create (.ofText "src/other") (.ofText "out") none none .source]

/-- The pattern leaves the file out as it is seen from the upper root only. -/
def patternSettings : PlanSettings where
  excludes := [.text "sub*"]

theorem sources_exact_nested :
    (∃ plan, (make nestedHost nestedDirectories none patternSettings).result = .ok plan ∧
      ((plan.filesOf 0).map id).count (.ofText "src/sub/.java") = 0 ∧
      ((plan.filesOf 9).map id).count (.ofText "src/sub/.java") = 2) ∧
    ∃ plan, (make nestedHost apartDirectories none patternSettings).result = .ok plan ∧
      (plan.allFiles.map (·.resolve nestedHost.directory)).count (.ofText "/src/sub/.java") =
        1 := by
  have nested : (make nestedHost nestedDirectories none patternSettings).result.toOption.map
      (·.test) = some false := by
    decide +kernel
  have apart : (make nestedHost apartDirectories none patternSettings).result.toOption.map
      (·.test) = some false := by
    decide +kernel
  obtain ⟨plan, made, _⟩ := exists_ok_of_toOption nested
  obtain ⟨other, otherMade, _⟩ := exists_ok_of_toOption apart
  have held := ((sources_exact nestedHost nestedDirectories ["sub*"]).2 none patternSettings plan
    rfl made).1
  have alone := ((sources_exact nestedHost apartDirectories ["sub*"]).2 none patternSettings
    other rfl otherMade).2 (by unfold FileTree.HasPlainPlaces; decide)
  refine ⟨⟨plan, made, ?_, ?_⟩, other, otherMade, ?_⟩
  · rw [held.counts]
    decide +kernel
  · rw [held.counts]
    decide +kernel
  · exact alone.once (by unfold Apart; decide +kernel) _ (by decide +kernel)

end ModulePlan.Plan
