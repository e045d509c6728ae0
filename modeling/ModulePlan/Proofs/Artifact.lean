/-
Artifacts on a host whose file tree gains files.

An artifact that is described twice is described in the same way, if what comes into its
directory is no compiled declaration that javap can read.
-/

import ModulePlan.Artifact.Description
import ModulePlan.Proofs.Host

namespace ModulePlan.Artifact

variable {host : Host} {after : FileTree} {fresh : List String → Option Content}

/-- Does javap fail on each compiled declaration that comes in? -/
def Refuses (host : Host) (after : FileTree) (fresh : List String → Option Content) : Prop :=
  ∀ javap, host.javap = some javap → ∀ (path : FilePath) content,
    host.LeadsToFresh after fresh (path.join compiledDeclaration) content →
    (javap (path.join compiledDeclaration).toText).status ≠ 0

private theorem result_describeClass_of_failed {host : Host} {target : String}
    (fails : ∀ javap, host.javap = some javap → (javap target).status ≠ 0) :
    ∃ fault, (describeClass host target).result = .error fault := by
  unfold describeClass list
  cases installed : host.javap with
  | none => exact ⟨_, rfl⟩
  | some javap =>
      simp only [Report.result_bind, if_pos (fails javap installed)]
      exact ⟨_, rfl⟩

private theorem describe_of_directory {host : Host} {path : FilePath}
    (standing : host.node? path = .ok (some .directory)) :
    (describe host path).result =
      (host.isFile (path.join compiledDeclaration)).bind fun declared =>
        if declared then
          (describeClass host (path.join compiledDeclaration).toText).result.map some
        else .ok none := by
  unfold describe
  rw [Report.result_bind, Report.result_ofExcept, standing]
  change Report.result (Report.ofExcept _ >>= _) = _
  rw [Report.result_bind, Report.result_ofExcept]
  cases host.isFile (path.join compiledDeclaration) with
  | error fault => rfl
  | ok declared =>
      cases declared with
      | false => rfl
      | true =>
          change Report.result (describeClass host _ >>= _) = _
          rw [Report.result_bind]
          cases (describeClass host (path.join compiledDeclaration).toText).result with
          | error fault => rfl
          | ok descriptor => rfl

theorem result_describe_gains (gains : host.files.Gains after fresh) {path : FilePath}
    {node : Node} (standing : host.node? path = .ok (some node)) :
    (describe { host with files := after } path).result = (describe host path).result ∨
      ((describe { host with files := after } path).result =
          (describeClass host (path.join compiledDeclaration).toText).result.map some ∧
        ∃ content, host.LeadsToFresh after fresh (path.join compiledDeclaration) content) := by
  have later : { host with files := after }.node? path = .ok (some node) := by
    rcases Host.node?_gains gains path with same | ⟨lost, _⟩
    · rw [same, standing]
    · rw [lost] at standing
      cases standing
  cases node with
  | directory =>
      rw [describe_of_directory standing, describe_of_directory later]
      rcases Host.isFile_gains gains (path.join compiledDeclaration) with
        same | ⟨_, content, leads, found⟩
      · rw [same]
        exact Or.inl rfl
      · rw [found]
        exact Or.inr ⟨rfl, content, leads⟩
  | file content =>
      left
      unfold describe
      rw [Report.result_bind, Report.result_bind, Report.result_ofExcept,
        Report.result_ofExcept, standing, later]
      cases content with
      | bytes data => rfl
      | archive entries => rfl

private theorem node_of_describe {path : FilePath} {descriptor : Option ModuleDescriptor}
    (described : (describe host path).result = .ok descriptor) :
    ∃ node, host.node? path = .ok (some node) := by
  unfold describe at described
  rw [Report.result_bind, Report.result_ofExcept] at described
  cases standing : host.node? path with
  | error fault =>
      rw [standing] at described
      cases described
  | ok found =>
      cases found with
      | none =>
          rw [standing] at described
          cases described
      | some node => exact ⟨node, rfl⟩

theorem descriptor_gains (gains : host.files.Gains after fresh)
    (refuses : Refuses host after fresh) {path : FilePath}
    {descriptor other : Option ModuleDescriptor}
    (described : (describe host path).result = .ok descriptor)
    (again : (describe { host with files := after } path).result = .ok other) :
    other = descriptor := by
  obtain ⟨node, standing⟩ := node_of_describe described
  rcases result_describe_gains gains standing with same | ⟨read, content, leads⟩
  · rw [same, described] at again
    exact (Except.ok.inj again).symm
  · have fails : ∀ javap, host.javap = some javap →
        (javap (path.join compiledDeclaration).toText).status ≠ 0 :=
      fun javap installed => refuses javap installed path content leads
    obtain ⟨fault, failed⟩ := result_describeClass_of_failed fails
    rw [read, failed] at again
    cases again

/-- Where no compiled declaration comes in, an artifact can be described as well as before,
unless it comes in itself. -/
theorem describe_completes_gains_iff (gains : host.files.Gains after fresh)
    (undeclared : ∀ (path : FilePath) content,
      ¬ host.LeadsToFresh after fresh (path.join compiledDeclaration) content)
    {path : FilePath} (apart : ∀ content, ¬ host.LeadsToFresh after fresh path content) :
    (∃ descriptor, (describe { host with files := after } path).result = .ok descriptor) ↔
      ∃ descriptor, (describe host path).result = .ok descriptor := by
  have same : host.node? path = { host with files := after }.node? path := by
    rcases Host.node?_gains gains path with same | ⟨_, content, leads, _⟩
    · exact same.symm
    · exact absurd leads (apart content)
  have agree : ∀ node, host.node? path = .ok (some node) →
      (describe { host with files := after } path).result = (describe host path).result := by
    intro node standing
    rcases result_describe_gains gains standing with told | ⟨_, content, leads⟩
    · exact told
    · exact absurd leads (undeclared path content)
  constructor
  · intro given
    rcases given with ⟨descriptor, described⟩
    obtain ⟨node, standing⟩ := node_of_describe described
    rw [← same] at standing
    exact ⟨descriptor, (agree node standing).symm.trans described⟩
  · intro given
    rcases given with ⟨descriptor, described⟩
    obtain ⟨node, standing⟩ := node_of_describe described
    exact ⟨descriptor, (agree node standing).trans described⟩

end ModulePlan.Artifact
