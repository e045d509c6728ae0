/-
What a view keeps of a resolved project.

A record of the resolver gives a dependency if its scope is missing or known and its artifact was
resolved; other records are passed over.  A dependency is told by group, artifact and scope, so
all that the records give is kept only if no two of them agree in these.
-/

import ModulePlan.MavenProject
import ModulePlan.Proofs.KeyedList
import ModulePlan.Proofs.Report
import ModulePlan.Proofs.ScopeValue

namespace ModulePlan.MavenProject

/-- A record gives this dependency, with its artifact at this path. -/
structure Gives (record : MavenDependency) (entry : Dependency × FilePath) : Prop where
  coordinates : entry.1.coordinates = record.group ++ ":" ++ record.artifact
  scope : Scope.IsNamedBy record.scope entry.1.scope
  path : ∃ file, record.file = .ok file ∧ entry.2 = .ofText file

/-- Some records give these dependencies, in the same order; the others give none. -/
inductive Give : List MavenDependency → List (Dependency × FilePath) → Prop
  | nil : Give [] []
  | keep {record : MavenDependency} {records : List MavenDependency}
      {entry : Dependency × FilePath} {entries : List (Dependency × FilePath)}
      (gives : Gives record entry) (later : Give records entries) :
      Give (record :: records) (entry :: entries)
  | pass {record : MavenDependency} {records : List MavenDependency}
      {entries : List (Dependency × FilePath)} (none : ∀ entry, ¬Gives record entry)
      (later : Give records entries) : Give (record :: records) entries

/-- If no record is passed over, there are as many dependencies as records. -/
theorem length_of_give {records : List MavenDependency} {entries : List (Dependency × FilePath)}
    (give : Give records entries) (all : ∀ record ∈ records, ∃ entry, Gives record entry) :
    entries.length = records.length := by
  induction give with
  | nil => rfl
  | keep gives later ih =>
      rw [List.length_cons, List.length_cons, ih (List.forall_mem_cons.mp all).2]
  | pass none later ih =>
      obtain ⟨entry, gives⟩ := all _ List.mem_cons_self
      exact absurd gives (none entry)

/-! ### Reading the records -/

variable {view later : DependencyView}

/-- A resolver that fails in a way that it is known to fail leaves an artifact without a file. -/
theorem file_of_fileOf {record : MavenDependency} {found : Option FilePath}
    (read : (fileOf record).result = .ok found) :
    found = record.file.toOption.map FilePath.ofText := by
  unfold fileOf at read
  cases resolved : record.file with
  | ok file =>
      rw [resolved] at read
      cases read
      rfl
  | error fault =>
      rw [resolved] at read
      cases fault with
      | kind text => cases read
      | _ =>
          cases read
          rfl

/-- A record that is read adds the dependency that it gives, or it gives none. -/
theorem gives_of_addDependency {record : MavenDependency}
    (read : (addDependency view record).result = .ok later) :
    (∃ entry, Gives record entry ∧ later = view.add entry.1 entry.2 none true) ∨
      (∀ entry, ¬Gives record entry) ∧ later = view := by
  unfold addDependency at read
  cases named : Scope.ofValue record.scope with
  | error fault =>
      have unnamed : ∀ entry, ¬Gives record entry := by
        intro entry gives
        rw [Scope.ofValue_eq_ok_iff.mpr gives.scope] at named
        cases named
      rw [named] at read
      split at read
      · cases read
        exact Or.inr ⟨unnamed, rfl⟩
      · cases read
      · rename_i impossible
        cases impossible
  | ok scope =>
      rw [named] at read
      change (fileOf record >>= _).result = _ at read
      rw [Report.result_bind] at read
      obtain ⟨found, resolved, read⟩ := exceptBind_eq_ok.mp read
      rw [file_of_fileOf resolved] at read
      cases given : record.file with
      | ok file =>
          rw [given] at read
          cases read
          refine Or.inl ⟨(⟨coordinates record, scope⟩, .ofText file), ?_, rfl⟩
          exact ⟨rfl, Scope.ofValue_eq_ok_iff.mp named, file, given, rfl⟩
      | error fault =>
          rw [given] at read
          cases read
          refine Or.inr ⟨?_, rfl⟩
          intro entry gives
          obtain ⟨file, other, _⟩ := gives.path
          rw [given] at other
          cases other

theorem give_of_addDependencies {records : List MavenDependency}
    (read : (addDependencies view records).result = .ok later) :
    ∃ entries, Give records entries ∧
      later.dependencies =
        entries.foldl (fun table entry => table.insert entry.1 entry.2) view.dependencies := by
  induction records generalizing view with
  | nil =>
      cases read
      exact ⟨[], .nil, rfl⟩
  | cons record rest ih =>
      rw [addDependencies, Report.result_bind] at read
      obtain ⟨next, first, read⟩ := exceptBind_eq_ok.mp read
      obtain ⟨entries, give, made⟩ := ih read
      rcases gives_of_addDependency first with ⟨entry, gives, rfl⟩ | ⟨none, rfl⟩
      · exact ⟨entry :: entries, .keep gives give, made⟩
      · exact ⟨entries, .pass none give, made⟩

theorem model_eq_ok {host : Host} {path : FilePath} {found : MavenModel}
    (read : model host path = .ok found) : host.maven = some found := by
  unfold model at read
  cases installed : host.maven with
  | none =>
      rw [installed] at read
      cases read
  | some model =>
      rw [installed] at read
      obtain ⟨there, _, read⟩ := exceptBind_eq_ok.mp read
      cases there with
      | false => cases read
      | true =>
          rw [if_pos rfl] at read
          split at read
          · cases read
          · cases read
            rfl

/-! ### Faithfulness -/

/-- The dependencies of a view are those that the records give, the last of several that agree in
group, artifact and scope in the place of the first.  So the paths of all artifacts are kept, in
their order, exactly if no two records that give a dependency agree in these. -/
theorem load_exact {host : Host} {path : FilePath} {view : DependencyView}
    (accepted : (load host path).result = .ok view) :
    ∃ model entries, host.maven = some model ∧ Give model.dependencies entries ∧
      view.dependencies = .ofList entries ∧
      (view.dependencies.values = entries.map Prod.snd ↔ (entries.map Prod.fst).Nodup) := by
  unfold load at accepted
  simp only [Report.result_bind, Report.result_ofExcept, Report.result_debug] at accepted
  obtain ⟨model, found, accepted⟩ := exceptBind_eq_ok.mp accepted
  obtain ⟨made, read, accepted⟩ := exceptBind_eq_ok.mp accepted
  cases accepted
  obtain ⟨entries, give, kept⟩ := give_of_addDependencies read
  refine ⟨model, entries, model_eq_ok found, give, kept, ?_⟩
  rw [kept]
  exact KeyedList.values_ofList_iff entries

/-- The artifact of one system among those that a library has. -/
def nativeRecord (file : String) : MavenDependency :=
  ⟨"com.example", "native", .text "test", .ok file⟩

def nativeEntry (file : String) : Dependency × FilePath :=
  (⟨"com.example:native", .test⟩, .ofText file)

/-- A project that depends on a library for two systems. -/
def nativesHost : Host where
  files := FileTree.put {} ["pom.xml"] (.file (.bytes []))
  maven := some { dependencies := [nativeRecord "linux.jar", nativeRecord "macos.jar"] }

theorem gives_native (file : String) : Gives (nativeRecord file) (nativeEntry file) where
  coordinates := rfl
  scope := .word (by decide) (show Scope.word .test = Scope.normalForm "test" by decide)
  path := ⟨file, rfl, rfl⟩

private theorem dependencies_natives :
    (load nativesHost (.ofText "pom.xml")).result.toOption.map (·.dependencies.entries) =
      some [nativeEntry "macos.jar"] := by
  decide +kernel

private theorem gives_of_native {record : MavenDependency}
    (present : record ∈ [nativeRecord "linux.jar", nativeRecord "macos.jar"]) :
    ∃ entry, Gives record entry := by
  simp only [List.mem_cons, List.not_mem_nil, or_false] at present
  rcases present with rfl | rfl
  · exact ⟨_, gives_native "linux.jar"⟩
  · exact ⟨_, gives_native "macos.jar"⟩

/-- Of two artifacts a view keeps one, so both records give the same dependency. -/
theorem load_exact_natives :
    ∃ view model entries, (load nativesHost (.ofText "pom.xml")).result = .ok view ∧
      nativesHost.maven = some model ∧ Give model.dependencies entries ∧ entries.length = 2 ∧
      view.dependencies = .ofList entries ∧ ¬(entries.map Prod.fst).Nodup := by
  obtain ⟨view, accepted, held⟩ := exists_ok_of_toOption dependencies_natives
  obtain ⟨model, entries, installed, give, kept, all⟩ := load_exact accepted
  cases installed
  have two : entries.length = 2 := length_of_give give fun _ present => gives_of_native present
  refine ⟨view, _, entries, accepted, rfl, give, two, kept, ?_⟩
  intro distinct
  have values := congrArg List.length (all.mpr distinct)
  unfold KeyedList.values at values
  rw [held, List.length_map, List.length_map, two] at values
  cases values

/-- Each of two artifacts is resolved, and one is lost. -/
theorem load_loses_artifacts :
    ∃ view model, (load nativesHost (.ofText "pom.xml")).result = .ok view ∧
      nativesHost.maven = some model ∧ model.dependencies.length = 2 ∧
      (∀ record ∈ model.dependencies, ∃ entry, Gives record entry) ∧
      view.dependencies.values = [.ofText "macos.jar"] := by
  obtain ⟨view, accepted, held⟩ := exists_ok_of_toOption dependencies_natives
  exact ⟨view, _, accepted, rfl, rfl, fun _ present => gives_of_native present,
    congrArg (List.map Prod.snd) held⟩

end ModulePlan.MavenProject
