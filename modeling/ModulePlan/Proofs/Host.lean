/-
What a host says of paths.

Only a path that is too long cannot be looked at.  Nothing that a host says of a path changes
when its file tree gains files, unless the path leads to one of the files that come in.  A file
that cannot be read is no fault of a setting.
-/

import ModulePlan.Host
import ModulePlan.Proofs.FileTree
import ModulePlan.Proofs.Report

namespace ModulePlan

/-- Is this a fault of a configuration, a listing of dependencies or their resolution? -/
def Fault.isSetting : Fault → Bool
  | .setting _ => true
  | _ => false

@[simp] theorem Fault.isSetting_ofWriting (problem : Document.WritingProblem) :
    (ofWriting problem).isSetting = false := by
  cases problem <;> rfl

namespace Host

def start (host : Host) (path : FilePath) : List String :=
  if path.root = .relative then host.directory else []

/-- The place of the directory that the names of a path lead to. -/
def directoryAt? (host : Host) (path : FilePath) : Option (List String) :=
  match host.files.walk (host.start path) path.names with
  | .ok (place, .directory) => some place
  | _ => none

theorem directoryAt?_eq_some {host : Host} {path : FilePath} {place : List String} :
    host.directoryAt? path = some place ↔
      host.files.walk (host.start path) path.names = .ok (place, .directory) := by
  unfold directoryAt?
  split
  · rename_i other found
    simp [found]
  · rename_i other
    constructor
    · intro impossible
      cases impossible
    · intro found
      exact absurd found (other place)

/-! ### Looking at a path -/

section Looking

variable {host : Host} {path : FilePath}

theorem find_of_node? {node : Node} (found : host.node? path = .ok (some node)) :
    ∃ place, host.files.find host.directory path = .ok (place, node) := by
  unfold node? at found
  split at found
  · cases found
  · split at found
    · rename_i place other led
      cases found
      exact ⟨place, led⟩
    · cases found
    · cases found

/-- Only a path that is too long cannot be looked at. -/
theorem tooLong_of_node? {fault : Fault} (refused : host.node? path = .error fault) :
    host.files.find host.directory path = .error .tooLong ∧
      fault = .file (.nameTooLong path) := by
  unfold node? at refused
  split at refused
  · cases refused
  · split at refused
    · cases refused
    · rename_i long
      cases refused
      exact ⟨long, rfl⟩
    · cases refused

theorem find_of_isFile (file : host.isFile path = .ok true) :
    ∃ place content, host.files.find host.directory path = .ok (place, .file content) := by
  unfold isFile at file
  obtain ⟨node, found, file⟩ := exceptBind_eq_ok.mp file
  split at file
  · rename_i content
    obtain ⟨place, led⟩ := find_of_node? found
    exact ⟨place, content, led⟩
  · cases file

/-- The place of a root that is a directory. -/
def rootPlace? (host : Host) (root : FilePath) : Option (List String) :=
  match host.isDirectory root with
  | .ok true => host.directoryAt? root
  | _ => none

theorem find_of_isDirectory (there : host.isDirectory path = .ok true) :
    ∃ place, host.files.find host.directory path = .ok (place, .directory) ∧
      host.rootPlace? path = some place := by
  have found : ∃ place, host.files.find host.directory path = .ok (place, .directory) := by
    unfold isDirectory at there
    obtain ⟨node, found, there⟩ := exceptBind_eq_ok.mp there
    split at there
    · exact find_of_node? found
    · cases there
  obtain ⟨place, found⟩ := found
  refine ⟨place, found, ?_⟩
  unfold rootPlace?
  rw [there]
  unfold FileTree.find at found
  split at found
  · cases found
  · exact directoryAt?_eq_some.mpr found

theorem tooLong_of_isDirectory {fault : Fault} (refused : host.isDirectory path = .error fault) :
    host.files.find host.directory path = .error .tooLong ∧
      fault = .file (.nameTooLong path) := by
  unfold isDirectory at refused
  cases looked : host.node? path with
  | error other =>
      rw [looked] at refused
      cases refused
      exact tooLong_of_node? looked
  | ok node =>
      rw [looked, exceptBind_ok] at refused
      split at refused
      · cases refused
      · cases refused

end Looking

/-! ### Gains -/

section Gains

variable {host : Host} {after : FileTree} {fresh : List String → Option Content}

def LeadsToFresh (host : Host) (after : FileTree) (fresh : List String → Option Content)
    (path : FilePath) (content : Content) : Prop :=
  ∃ place, fresh place = some content ∧
    after.find host.directory path = .ok (place, .file content)

theorem node?_gains (gains : host.files.Gains after fresh) (path : FilePath) :
    { host with files := after }.node? path = host.node? path ∨
      (host.node? path = .ok none ∧ ∃ content, LeadsToFresh host after fresh path content ∧
        { host with files := after }.node? path = .ok (some (.file content))) := by
  unfold node?
  by_cases unnamable : (namingFault? path).isSome = true
  · rw [if_pos unnamable, if_pos unnamable]
    exact Or.inl rfl
  · rw [if_neg unnamable, if_neg unnamable]
    simp only
    rcases gains.find host.directory path with
      same | ⟨lost, stopped | ⟨place, content, new, found⟩⟩
    · rw [same]
      exact Or.inl rfl
    · rw [lost, stopped]
      exact Or.inl rfl
    · rw [lost, found]
      exact Or.inr ⟨rfl, content, ⟨place, new, found⟩, rfl⟩

theorem isDirectory_gains (gains : host.files.Gains after fresh) (path : FilePath) :
    { host with files := after }.isDirectory path = host.isDirectory path := by
  unfold isDirectory
  rcases node?_gains gains path with same | ⟨lost, content, _, found⟩
  · rw [same]
  · rw [lost, found]
    rfl

theorem isFile_gains (gains : host.files.Gains after fresh) (path : FilePath) :
    { host with files := after }.isFile path = host.isFile path ∨
      (host.isFile path = .ok false ∧ ∃ content, LeadsToFresh host after fresh path content ∧
        { host with files := after }.isFile path = .ok true) := by
  unfold isFile
  rcases node?_gains gains path with same | ⟨lost, content, leads, found⟩
  · left
    rw [same]
  · right
    rw [lost, found]
    exact ⟨rfl, content, leads, rfl⟩

theorem isFile_completes_gains (gains : host.files.Gains after fresh) (path : FilePath) :
    (∃ file, { host with files := after }.isFile path = .ok file) ↔
      ∃ file, host.isFile path = .ok file := by
  rcases isFile_gains gains path with same | ⟨lost, _, _, found⟩
  · rw [same]
  · rw [lost, found]
    exact ⟨fun _ => ⟨false, rfl⟩, fun _ => ⟨true, rfl⟩⟩

theorem readLines_gains (gains : host.files.Gains after fresh) {path : FilePath}
    (file : host.isFile path = .ok true) :
    { host with files := after }.readLines path = host.readLines path := by
  obtain ⟨place, content, found⟩ := find_of_isFile file
  have later := gains.find_of_ok found
  unfold readLines readText readBytes read
  simp only [found, later]

end Gains

/-! ### Faults -/

section Faults

variable {host : Host} {path : FilePath} {fault : Fault}

theorem isSetting_of_has (refused : host.has path = .error fault) : fault.isSetting = false := by
  unfold has at refused
  rcases exceptBind_eq_error.mp refused with unseen | ⟨node, _, impossible⟩
  · rw [(tooLong_of_node? unseen).2]
    rfl
  · cases impossible

theorem isSetting_of_namingFault? (found : namingFault? path = some fault) :
    fault.isSetting = false := by
  unfold namingFault? at found
  simp only at found
  split at found
  · cases found
    rfl
  · split at found <;> cases found
    rfl

theorem isSetting_of_read (refused : host.read path = .error fault) :
    fault.isSetting = false := by
  unfold read at refused
  split at refused
  · rename_i found
    cases refused
    exact isSetting_of_namingFault? found
  · split at refused <;> cases refused <;> rfl

theorem isSetting_of_readText (refused : host.readText path = .error fault) :
    fault.isSetting = false := by
  unfold readText readBytes at refused
  rcases exceptBind_eq_error.mp refused with unread | ⟨data, _, undecoded⟩
  · rcases exceptBind_eq_error.mp unread with unseen | ⟨content, _, archive⟩
    · exact isSetting_of_read unseen
    · split at archive <;> cases archive
      rfl
  · split at undecoded <;> cases undecoded
    rfl

end Faults

end Host

end ModulePlan
