/-
Which configurations are read, and how others are refused.

A configuration that is read has in each of its fields the value that the settings give it, and
paths are seen from the project's directory.  Settings of other kinds are refused for the first
of them, except that any value counts as a pattern of excluded files.  A refusal is told as a
fault of the setting, unless a file cannot be read, its `tool` is no table, or the value that is
refused has no text.
-/

import Mathlib.Data.Set.List
import ModulePlan.Configuration
import ModulePlan.Proofs.Document.Toml
import ModulePlan.Proofs.Host

namespace ModulePlan.Configuration

open Document (Value)

abbrev Entries := List (Value × Value)

/-! ### What settings say -/

/-- A value gives a source: it is a table with a root, and perhaps a module and a release. -/
inductive IsSource (project : FilePath) : Value → SourceSetting → Prop
  | table {entries : Entries} {root : String} {module : Option String} {release : Option Int}
      (rooted : Value.field? entries "root" = some (.text root))
      (named : Value.field? entries "module" = module.map .text)
      (released : Value.field? entries "release" = release.map .int) :
      IsSource project (.mapping entries) { root := project.join root, module, release }

/-- The entries give the path under a key, if they give one. -/
def IsPath (project : FilePath) (entries : Entries) (key : String) (path : Option FilePath) :
    Prop :=
  ∃ text : Option String, Value.field? entries key = text.map .text ∧ path = text.map project.join

/-- The entries give the list under a key, which is empty where they are silent. -/
def IsListed (entries : Entries) (key : String) (items : List Value) : Prop :=
  (Value.field? entries key).getD (.list []) = .list items

/-- A configuration has in each field what the entries say, or what holds where they are silent. -/
structure IsOf (directory : FilePath) (entries : Entries) (configuration : Configuration) :
    Prop where
  project : configuration.project = directory
  test : ∃ test : Option Bool, Value.field? entries "test" = test.map .bool ∧
    configuration.test = test.getD false
  output : IsPath directory entries "output-directory" configuration.output
  mainOutput : IsPath directory entries "main-output-directory" configuration.mainOutput
  patchFile : ∃ text : Option String, Value.field? entries "patch-file" = text.map .text ∧
    configuration.patchFile = text.getD Patch.conventionalFile
  module : Value.field? entries "module" = configuration.module.map .text
  dependencies : IsPath directory entries "dependencies" configuration.dependencies
  pom : IsPath directory entries "pom" configuration.pom
  excludes : IsListed entries "excludes" configuration.excludes
  sources : ∃ items, IsListed entries "sources" items ∧
    List.Forall₂ (IsSource directory) items configuration.sources

/-! ### What does not fit -/

/-- The kinds of values that settings have. -/
inductive Kind where
  | truth
  | whole
  | text
  | list

def Kind.admits : Kind → Value → Bool
  | .truth, .bool _ | .whole, .int _ | .text, .text _ | .list, .list _ => true
  | _, _ => false

def settingKinds : List (String × Kind) :=
  [("test", .truth), ("output-directory", .text), ("main-output-directory", .text),
    ("patch-file", .text), ("module", .text), ("dependencies", .text), ("pom", .text),
    ("excludes", .list), ("sources", .list)]

/-- What is wrong at one place of a configuration. -/
inductive Misfit where
  | unlike (key : String) (value : Value)
  | withoutRoot

/-- How a misfit is told, which fails for a value that cannot be written. -/
def Misfit.fault (source : String) : Misfit → Fault
  | .unlike key value =>
    match value.describe with
    | .ok shown => .setting (.invalidValue source key shown)
    | .error problem => .ofWriting problem
  | .withoutRoot => .setting (.sourceWithoutRoot source)

def misfitsAt (entries : Entries) (key : String) (kind : Kind) : List Misfit :=
  match Value.field? entries key with
  | some value => if kind.admits value then [] else [.unlike key value]
  | none => []

def sourceMisfits : Value → List Misfit
  | .mapping entries =>
    misfitsAt entries "root" .text ++
      ((if (Value.field? entries "root").isNone then [.withoutRoot] else []) ++
        (misfitsAt entries "module" .text ++ misfitsAt entries "release" .whole))
  | value => [.unlike "sources" value]

def listedMisfits (entries : Entries) : List Misfit :=
  match Value.field? entries "sources" with
  | some (.list items) => items.flatMap sourceMisfits
  | _ => []

/-- All that is wrong with the entries of a configuration, in the order in which it is looked
for. -/
def misfits (entries : Entries) : List Misfit :=
  settingKinds.flatMap (fun (key, kind) => misfitsAt entries key kind) ++ listedMisfits entries

/-! ### Readings -/

/-- A reading gives the values that hold, and is refused for the first of the misfits. -/
structure Reads {α : Type} (source : String) (wrong : List Misfit) (holds : α → Prop)
    (result : Except Fault α) : Prop where
  ok : ∀ value, result = .ok value ↔ holds value
  error : ∀ fault, result = .error fault ↔
    ∃ misfit, wrong.head? = some misfit ∧ fault = misfit.fault source

namespace Reads

variable {α β : Type} {source : String} {wrong others : List Misfit} {holds : α → Prop}
  {goal : β → Prop} {result : Except Fault α}

theorem eq_nil (reads : Reads source wrong holds result) {value : α}
    (read : result = .ok value) : wrong = [] := by
  cases wrong with
  | nil => rfl
  | cons misfit rest =>
      have refused := (reads.error _).mpr ⟨misfit, rfl, rfl⟩
      rw [read] at refused
      cases refused

theorem unique (reads : Reads source wrong holds result) {left right : α} (first : holds left)
    (second : holds right) : left = right := by
  have same := (reads.ok left).mpr first
  rw [(reads.ok right).mpr second] at same
  exact (Except.ok.inj same).symm

theorem ofOk {value : α} (given : holds value) (sole : ∀ other, holds other → other = value) :
    Reads source [] holds (.ok value) where
  ok := by
    intro other
    constructor
    · intro same
      cases same
      exact given
    · intro held
      rw [sole other held]
  error := by
    intro fault
    constructor
    · intro impossible
      cases impossible
    · rintro ⟨misfit, impossible, _⟩
      cases impossible

/-- What is refused at once. -/
theorem ofMisfit (misfit : Misfit) (unfit : ∀ value, ¬holds value) :
    Reads source (misfit :: wrong) holds (.error (misfit.fault source)) where
  ok := by
    intro value
    constructor
    · intro impossible
      cases impossible
    · intro held
      exact absurd held (unfit value)
  error := by
    intro fault
    constructor
    · intro same
      exact ⟨misfit, rfl, (Except.error.inj same).symm⟩
    · rintro ⟨other, first, rfl⟩
      cases first
      rfl

/-- One reading after another.  Whatever holds in the end fixes what is read first. -/
theorem bind {next : α → Except Fault β} (here : Reads source wrong holds result)
    (sure : ∀ value, goal value → ∃ middle, holds middle)
    (later : ∀ middle, holds middle → Reads source others goal (next middle)) :
    Reads source (wrong ++ others) goal (result >>= next) := by
  cases read : result with
  | ok middle =>
      have first := (here.ok middle).mp read
      rw [here.eq_nil read]
      exact later middle first
  | error refused =>
      obtain ⟨misfit, first, rfl⟩ := (here.error refused).mp read
      have begins : (wrong ++ others).head? = some misfit := by
        rw [List.head?_append, first]
        rfl
      constructor
      · intro value
        constructor
        · intro impossible
          cases impossible
        · intro given
          obtain ⟨middle, fixed⟩ := sure value given
          have known := (here.ok middle).mpr fixed
          rw [read] at known
          cases known
      · intro fault
        constructor
        · intro same
          cases same
          exact ⟨misfit, begins, rfl⟩
        · rintro ⟨other, found, rfl⟩
          rw [begins] at found
          cases found
          rfl

theorem mapM {make : α → Except Fault β} {wrong : α → List Misfit} {holds : α → β → Prop}
    (each : ∀ element, Reads source (wrong element) (holds element) (make element))
    (elements : List α) :
    Reads source (elements.flatMap wrong) (List.Forall₂ holds elements)
      (elements.mapM make) := by
  induction elements with
  | nil =>
      refine ofOk .nil fun other held => ?_
      cases held
      rfl
  | cons first rest ih =>
      rw [List.mapM_cons, List.flatMap_cons]
      refine (each first).bind ?_ fun value here => ?_
      · intro values held
        cases held with
        | cons here _ => exact ⟨_, here⟩
      · rw [← List.append_nil (rest.flatMap wrong)]
        refine ih.bind ?_ fun values later => ofOk (.cons here later) ?_
        · intro all held
          cases held with
          | cons _ later => exact ⟨_, later⟩
        · intro other held
          cases held with
          | cons otherHere otherLater =>
              rw [(each first).unique otherHere here, ih.unique otherLater later]

end Reads

/-! ### Settings of one kind -/

section Settings

variable {settings : Settings} {key : String} {value : Value} {kind : Kind}

theorem refuse_eq {α : Type} :
    (settings.refuse key value : Except Fault α) =
      .error ((Misfit.unlike key value).fault settings.source) := by
  unfold Settings.refuse Misfit.fault Fault.written
  simp only
  cases value.describe <;> rfl

theorem misfitsAt_of_none {entries : Entries} (absent : Value.field? entries key = none) :
    misfitsAt entries key kind = [] := by
  unfold misfitsAt
  rw [absent]

theorem misfitsAt_of_some {entries : Entries} (found : Value.field? entries key = some value) :
    misfitsAt entries key kind = if kind.admits value then [] else [.unlike key value] := by
  unfold misfitsAt
  rw [found]

/-- A value that is not of the kind is refused, whatever would be made of the kind. -/
theorem reads_refuse {α : Type} {holds : α → Prop} (found : settings.field? key = some value)
    (other : kind.admits value = false) (unfit : ∀ result, ¬holds result) :
    Reads settings.source (misfitsAt settings.entries key kind) holds
      (settings.refuse key value) := by
  rw [misfitsAt_of_some found, refuse_eq, if_neg (Bool.eq_false_iff.mp other)]
  exact .ofMisfit _ unfit

section Optional

variable {α : Type} {make : α → Value}

theorem reads_none (absent : settings.field? key = none) :
    Reads settings.source (misfitsAt settings.entries key kind)
      (fun held => Value.field? settings.entries key = held.map make) (.ok none) := by
  rw [misfitsAt_of_none absent]
  refine .ofOk absent fun other given => ?_
  exact Option.map_eq_none_iff.mp (given.symm.trans absent)

theorem reads_some {held : α} (injective : Function.Injective make)
    (found : settings.field? key = some (make held)) (fits : kind.admits (make held) = true) :
    Reads settings.source (misfitsAt settings.entries key kind)
      (fun held => Value.field? settings.entries key = held.map make) (.ok (some held)) := by
  rw [misfitsAt_of_some found, if_pos fits]
  refine .ofOk found fun other given => ?_
  exact Option.map_injective injective (given.symm.trans found)

theorem reads_other (found : settings.field? key = some value)
    (other : kind.admits value = false) (unlike : ∀ held, value ≠ make held) :
    Reads settings.source (misfitsAt settings.entries key kind)
      (fun held : Option α => Value.field? settings.entries key = held.map make)
      (settings.refuse key value) := by
  refine reads_refuse found other fun held given => ?_
  obtain ⟨inner, _, same⟩ := Option.map_eq_some_iff.mp (given.symm.trans found)
  exact unlike inner same.symm

end Optional

theorem reads_text? (settings : Settings) (key : String) :
    Reads settings.source (misfitsAt settings.entries key .text)
      (fun text => Value.field? settings.entries key = text.map .text) (settings.text? key) := by
  unfold Settings.text?
  split
  · rename_i absent
    exact reads_none absent
  · rename_i found
    exact reads_some (fun _ _ => Value.text.inj) found rfl
  · rename_i value unlike found
    refine reads_other found ?_ unlike
    cases value <;> first | rfl | exact absurd rfl (unlike _)

theorem reads_bool? (settings : Settings) (key : String) :
    Reads settings.source (misfitsAt settings.entries key .truth)
      (fun truth => Value.field? settings.entries key = truth.map .bool) (settings.bool? key) := by
  unfold Settings.bool?
  split
  · rename_i absent
    exact reads_none absent
  · rename_i found
    exact reads_some (fun _ _ => Value.bool.inj) found rfl
  · rename_i value unlike found
    refine reads_other found ?_ unlike
    cases value <;> first | rfl | exact absurd rfl (unlike _)

theorem reads_int? (settings : Settings) (key : String) :
    Reads settings.source (misfitsAt settings.entries key .whole)
      (fun whole => Value.field? settings.entries key = whole.map .int) (settings.int? key) := by
  unfold Settings.int?
  split
  · rename_i absent
    exact reads_none absent
  · rename_i found
    exact reads_some (fun _ _ => Value.int.inj) found rfl
  · rename_i value unlike found
    refine reads_other found ?_ unlike
    cases value <;> first | rfl | exact absurd rfl (unlike _)

theorem reads_list (settings : Settings) (key : String) :
    Reads settings.source (misfitsAt settings.entries key .list)
      (IsListed settings.entries key) (settings.list key) := by
  have sole : ∀ {items}, IsListed settings.entries key items →
      ∀ other, IsListed settings.entries key other → other = items :=
    fun given other also => Value.list.inj (also.symm.trans given)
  unfold Settings.list
  split
  · rename_i absent
    have given : IsListed settings.entries key [] := by
      unfold IsListed
      rw [show Value.field? settings.entries key = none from absent]
      rfl
    rw [misfitsAt_of_none absent]
    exact .ofOk given (sole given)
  · rename_i items found
    have given : IsListed settings.entries key items := by
      unfold IsListed
      rw [show Value.field? settings.entries key = some (.list items) from found]
      rfl
    have fits : Kind.list.admits (.list items) = true := rfl
    rw [misfitsAt_of_some found, if_pos fits]
    exact .ofOk given (sole given)
  · rename_i value unlike found
    refine reads_refuse found ?_ fun items given => ?_
    · cases value <;> first | rfl | exact absurd rfl (unlike _)
    · unfold IsListed at given
      rw [show Value.field? settings.entries key = some value from found] at given
      exact unlike items given

theorem reads_path? (settings : Settings) (project : FilePath) (key : String) :
    Reads settings.source (misfitsAt settings.entries key .text)
      (IsPath project settings.entries key) (settings.path? project key) := by
  unfold Settings.path?
  rw [← List.append_nil (misfitsAt settings.entries key .text)]
  refine (reads_text? settings key).bind ?_ fun text given => .ofOk ⟨text, given, rfl⟩ ?_
  · rintro path ⟨text, given, _⟩
    exact ⟨text, given⟩
  · rintro path ⟨other, otherGiven, rfl⟩
    rw [(reads_text? settings key).unique otherGiven given]

end Settings

/-! ### Whole configurations -/

theorem reads_sourceOf (settings : Settings) (project : FilePath) (item : Value) :
    Reads settings.source (sourceMisfits item) (IsSource project item)
      (sourceOf settings project item) := by
  unfold sourceOf
  split
  · rename_i entries
    let inner : Settings := ⟨settings.source, entries⟩
    unfold sourceMisfits
    refine (reads_path? inner project "root").bind ?_ ?_
    · rintro setting ⟨rooted, _, _⟩
      exact ⟨_, some _, rooted, rfl⟩
    rintro root ⟨text, rooted, rfl⟩
    cases text with
    | none =>
        rw [show Value.field? entries "root" = none from rooted]
        refine .ofMisfit .withoutRoot ?_
        rintro setting ⟨other, _, _⟩
        cases rooted.symm.trans other
    | some text =>
        rw [show Value.field? entries "root" = some (.text text) from rooted]
        refine (reads_text? inner "module").bind ?_ fun module named => ?_
        · rintro setting ⟨_, named, _⟩
          exact ⟨_, named⟩
        rw [← List.append_nil (misfitsAt entries "release" .whole)]
        refine (reads_int? inner "release").bind ?_ fun release released =>
          .ofOk (.table rooted named released) ?_
        · rintro setting ⟨_, _, released⟩
          exact ⟨_, released⟩
        rintro setting ⟨otherRooted, otherNamed, otherReleased⟩
        cases rooted.symm.trans otherRooted
        rw [(reads_text? inner "module").unique otherNamed named,
          (reads_int? inner "release").unique otherReleased released]
  · rename_i value unlike
    have wrong : sourceMisfits item = [.unlike "sources" item] := by
      cases item <;> first | rfl | exact absurd rfl (unlike _)
    rw [wrong, refuse_eq]
    refine .ofMisfit _ ?_
    rintro setting ⟨_, _, _⟩
    exact unlike _ rfl

theorem misfits_eq (entries : Entries) :
    misfits entries =
      misfitsAt entries "test" .truth ++
        (misfitsAt entries "output-directory" .text ++
          (misfitsAt entries "main-output-directory" .text ++
            (misfitsAt entries "patch-file" .text ++
              (misfitsAt entries "module" .text ++
                (misfitsAt entries "dependencies" .text ++
                  (misfitsAt entries "pom" .text ++
                    (misfitsAt entries "excludes" .list ++
                      (misfitsAt entries "sources" .list ++
                        (listedMisfits entries ++ []))))))))) := by
  simp [misfits, settingKinds]

theorem listedMisfits_of_isListed {entries : Entries} {items : List Value}
    (listed : IsListed entries "sources" items) :
    listedMisfits entries = items.flatMap sourceMisfits := by
  unfold IsListed at listed
  unfold listedMisfits
  cases found : Value.field? entries "sources" with
  | none =>
      rw [found] at listed
      cases listed
      rfl
  | some value =>
      rw [found] at listed
      cases listed
      rfl

/-- What the entries say of a field is one value, so two configurations of them are the same. -/
theorem IsOf.unique {project : FilePath} {entries : Entries} {left right : Configuration}
    (first : IsOf project entries left) (second : IsOf project entries right) : left = right := by
  let settings : Settings := ⟨"", entries⟩
  obtain ⟨leftTest, leftTested, testEq⟩ := first.test
  obtain ⟨rightTest, rightTested, rightTestEq⟩ := second.test
  obtain ⟨leftFile, leftFiled, fileEq⟩ := first.patchFile
  obtain ⟨rightFile, rightFiled, rightFileEq⟩ := second.patchFile
  obtain ⟨leftItems, leftListed, leftSources⟩ := first.sources
  obtain ⟨rightItems, rightListed, rightSources⟩ := second.sources
  rw [(reads_bool? settings _).unique leftTested rightTested, ← rightTestEq] at testEq
  rw [(reads_text? settings _).unique leftFiled rightFiled, ← rightFileEq] at fileEq
  rw [(reads_list settings _).unique leftListed rightListed] at leftSources
  have projectEq := first.project.trans second.project.symm
  have outputEq := (reads_path? settings project _).unique first.output second.output
  have mainEq := (reads_path? settings project _).unique first.mainOutput second.mainOutput
  have moduleEq := (reads_text? settings _).unique first.module second.module
  have dependenciesEq :=
    (reads_path? settings project _).unique first.dependencies second.dependencies
  have pomEq := (reads_path? settings project _).unique first.pom second.pom
  have excludesEq := (reads_list settings _).unique first.excludes second.excludes
  have sourcesEq :=
    (Reads.mapM (reads_sourceOf settings project) rightItems).unique leftSources rightSources
  cases left
  cases right
  simp only at *
  subst_vars
  rfl

/-- The settings are read one after another, and each leaves what is wrong with the others. -/
theorem reads_ofSettings (project : FilePath) (settings : Settings) :
    Reads settings.source (misfits settings.entries) (IsOf project settings.entries)
      (ofSettings project settings) := by
  have truth := reads_bool? settings
  have text := reads_text? settings
  have path := reads_path? settings project
  have list := reads_list settings
  rw [misfits_eq]
  unfold ofSettings
  refine (truth _).bind (fun _ given => given.test.imp fun _ => And.left) fun test tested => ?_
  refine (path _).bind (fun _ given => ⟨_, given.output⟩) fun output outputGiven => ?_
  refine (path _).bind (fun _ given => ⟨_, given.mainOutput⟩) fun mainOutput mainGiven => ?_
  refine (text _).bind (fun _ given => given.patchFile.imp fun _ => And.left)
    fun patchFile filed => ?_
  refine (text _).bind (fun _ given => ⟨_, given.module⟩) fun module named => ?_
  refine (path _).bind (fun _ given => ⟨_, given.dependencies⟩) fun dependencies listing => ?_
  refine (path _).bind (fun _ given => ⟨_, given.pom⟩) fun pom modelled => ?_
  refine (list _).bind (fun _ given => ⟨_, given.excludes⟩) fun excludes excluded => ?_
  refine (list _).bind (fun _ given => given.sources.imp fun _ => And.left)
    fun items listed => ?_
  rw [listedMisfits_of_isListed listed]
  refine (Reads.mapM (reads_sourceOf settings project) items).bind ?_ fun sources rooted => ?_
  · intro configuration given
    obtain ⟨others, otherListed, rooted⟩ := given.sources
    rw [(list _).unique otherListed listed] at rooted
    exact ⟨_, rooted⟩
  · suffices sound : IsOf project settings.entries _ from
      .ofOk sound fun other given => given.unique sound
    exact ⟨rfl, ⟨test, tested, rfl⟩, outputGiven, mainGiven, ⟨patchFile, filed, rfl⟩, named,
      listing, modelled, excluded, items, listed, rooted⟩

/-! ### Files that hold settings -/

/-- A file is there and holds these entries. -/
structure Holds (host : Host) (path : FilePath) (entries : Entries) : Prop where
  there : host.has path = .ok true
  read : ∃ text, host.readText path = .ok text ∧ Document.Toml.read text = .ok entries

/-- A file stops the reading: it cannot be looked at or read, or what it holds is beyond a
limit. -/
inductive Blocks (host : Host) (path : FilePath) : Fault → Prop
  | unseen {fault : Fault} (refused : host.has path = .error fault) : Blocks host path fault
  | unread {fault : Fault} (there : host.has path = .ok true)
      (refused : host.readText path = .error fault) : Blocks host path fault
  | beyond {fault : Fault} {text : String} (there : host.has path = .ok true)
      (read : host.readText path = .ok text)
      (refused : Document.Toml.read text = .error (.fault fault))
      (limit : Document.IsLimit fault) : Blocks host path fault

/-- What is taken for the settings of a project, with the path of its file.  A project without
settings has none. -/
inductive IsTable (host : Host) (project : FilePath) : Option (Value × FilePath) → Prop
  | own {entries : Entries} (held : Holds host (project.join ownFile) entries) :
      IsTable host project
        (some ((Value.field? entries "modpatch").getD (.mapping []), project.join ownFile))
  | shared {entries tools : Entries} (absent : host.has (project.join ownFile) = .ok false)
      (held : Holds host (project.join sharedFile) entries)
      (given : Value.field? entries "tool" = some (.mapping tools)) :
      IsTable host project ((Value.field? tools "modpatch").map (·, project.join sharedFile))
  | toolless {entries : Entries} (absent : host.has (project.join ownFile) = .ok false)
      (held : Holds host (project.join sharedFile) entries)
      (silent : Value.field? entries "tool" = none) : IsTable host project none
  | nowhere (absent : host.has (project.join ownFile) = .ok false)
      (neither : host.has (project.join sharedFile) = .ok false) : IsTable host project none

/-- The files of a project stop the reading by a fault that is no fault of the settings. -/
inductive Hides (host : Host) (project : FilePath) : Fault → Prop
  | own {fault : Fault} (blocked : Blocks host (project.join ownFile) fault) :
      Hides host project fault
  | shared {fault : Fault} (absent : host.has (project.join ownFile) = .ok false)
      (blocked : Blocks host (project.join sharedFile) fault) : Hides host project fault
  | tool {entries : Entries} {tool : Value}
      (absent : host.has (project.join ownFile) = .ok false)
      (held : Holds host (project.join sharedFile) entries)
      (given : Value.field? entries "tool" = some tool)
      (unlike : ∀ tools, tool ≠ .mapping tools) : Hides host project (.kind .toolNotTable)

section Files

variable {host : Host} {path project : FilePath} {entries : Entries} {fault : Fault}

theorem holds_iff :
    Holds host path entries ↔ host.has path = .ok true ∧ readEntries host path = .ok entries := by
  constructor
  · rintro ⟨there, text, read, held⟩
    refine ⟨there, ?_⟩
    unfold readEntries
    rw [read, exceptBind_ok, held]
    rfl
  · rintro ⟨there, read⟩
    unfold readEntries at read
    obtain ⟨text, read, held⟩ := exceptBind_eq_ok.mp read
    refine ⟨there, text, read, ?_⟩
    cases parsed : Document.Toml.read text with
    | error refusal =>
        rw [parsed] at held
        cases held
    | ok others =>
        rw [parsed] at held
        cases held
        rfl

theorem isSetting_of_isLimit (limit : Document.IsLimit fault) : fault.isSetting = false := by
  cases limit <;> rfl

theorem blocks_iff :
    Blocks host path fault ↔ host.has path = .error fault ∨ host.has path = .ok true ∧
      readEntries host path = .error fault ∧ fault.isSetting = false := by
  constructor
  · intro blocked
    cases blocked with
    | unseen refused => exact Or.inl refused
    | unread there refused =>
        refine Or.inr ⟨there, ?_, Host.isSetting_of_readText refused⟩
        unfold readEntries
        rw [refused]
        rfl
    | beyond there read refused limit =>
        refine Or.inr ⟨there, ?_, isSetting_of_isLimit limit⟩
        unfold readEntries
        rw [read, exceptBind_ok, refused]
        rfl
  · rintro (refused | ⟨there, refused, untold⟩)
    · exact .unseen refused
    · unfold readEntries at refused
      rcases exceptBind_eq_error.mp refused with unread | ⟨text, read, refused⟩
      · exact .unread there unread
      · have limits := Document.Toml.yields_read text
        cases parsed : Document.Toml.read text with
        | ok others =>
            rw [parsed] at refused
            cases refused
        | error refusal =>
            rw [parsed] at refused limits
            cases refused
            cases refusal with
            | malformed => cases untold
            | fault cause => exact .beyond there read parsed limits

theorem areToml_of_holds (held : Holds host path entries) : Document.Toml.AreToml entries := by
  obtain ⟨_, text, _, read⟩ := held
  have sound := Document.Toml.yields_read text
  rw [read] at sound
  exact sound

/-- The settings are a table as documents have them. -/
theorem areToml_of_isTable (table : IsTable host project (some (.mapping entries, path))) :
    Document.Toml.AreToml entries := by
  generalize same : some (Value.mapping entries, path) = found at table
  cases table with
  | @own others held =>
      have table := congrArg Prod.fst (Option.some.inj same)
      cases given : Value.field? others "modpatch" with
      | none =>
          rw [given] at table
          cases table
          exact Document.Toml.areToml_nil
      | some value =>
          rw [given] at table
          cases table
          exact Document.Toml.isToml_mapping_iff.mp
            (Document.Toml.isToml_of_field? (areToml_of_holds held) given)
  | shared _ held given =>
      obtain ⟨value, inner, pair⟩ := Option.map_eq_some_iff.mp same.symm
      cases pair
      have tools := Document.Toml.isToml_mapping_iff.mp
        (Document.Toml.isToml_of_field? (areToml_of_holds held) given)
      exact Document.Toml.isToml_mapping_iff.mp (Document.Toml.isToml_of_field? tools inner)
  | toolless => cases same
  | nowhere => cases same

theorem sharedTable?_eq_ok {found : Option Value} :
    sharedTable? host path = .ok found ↔ ∃ entries, readEntries host path = .ok entries ∧
      (Value.field? entries "tool" = none ∧ found = none ∨
        ∃ tools, Value.field? entries "tool" = some (.mapping tools) ∧
          found = Value.field? tools "modpatch") := by
  unfold sharedTable?
  rw [exceptBind_eq_ok]
  refine exists_congr fun entries => and_congr_right fun _ => ?_
  constructor
  · intro made
    split at made
    · rename_i silent
      cases made
      exact Or.inl ⟨silent, rfl⟩
    · rename_i tools given
      cases made
      exact Or.inr ⟨tools, given, rfl⟩
    · cases made
  · rintro (⟨silent, rfl⟩ | ⟨tools, given, rfl⟩)
    · rw [silent]
      rfl
    · rw [given]
      rfl

theorem sharedTable?_eq_error :
    sharedTable? host path = .error fault ↔ readEntries host path = .error fault ∨
      ∃ entries tool, readEntries host path = .ok entries ∧
        Value.field? entries "tool" = some tool ∧ (∀ tools, tool ≠ .mapping tools) ∧
        fault = .kind .toolNotTable := by
  unfold sharedTable?
  rw [exceptBind_eq_error]
  refine or_congr_right ⟨?_, ?_⟩
  · rintro ⟨entries, read, refused⟩
    split at refused
    · cases refused
    · cases refused
    · rename_i tool unlike given
      cases refused
      exact ⟨entries, tool, read, given, unlike, rfl⟩
  · rintro ⟨entries, tool, read, given, unlike, rfl⟩
    refine ⟨entries, read, ?_⟩
    rw [given]
    split
    · rename_i impossible
      cases impossible
    · rename_i tools same
      exact absurd (Option.some.inj same) (unlike tools)
    · rfl

theorem table?_eq_ok {found : Option (Value × FilePath)} :
    table? host project = .ok found ↔ IsTable host project found := by
  unfold table?
  simp only
  constructor
  · intro read
    obtain ⟨there, seen, read⟩ := exceptBind_eq_ok.mp read
    cases there with
    | true =>
        obtain ⟨entries, held, read⟩ := exceptBind_eq_ok.mp read
        cases read
        exact .own (holds_iff.mpr ⟨seen, held⟩)
    | false =>
        obtain ⟨also, alsoSeen, read⟩ := exceptBind_eq_ok.mp read
        cases also with
        | true =>
            obtain ⟨inner, shared, read⟩ := exceptBind_eq_ok.mp read
            cases read
            obtain ⟨entries, held, ⟨silent, rfl⟩ | ⟨tools, given, rfl⟩⟩ :=
              sharedTable?_eq_ok.mp shared
            · exact .toolless seen (holds_iff.mpr ⟨alsoSeen, held⟩) silent
            · exact .shared seen (holds_iff.mpr ⟨alsoSeen, held⟩) given
        | false =>
            cases read
            exact .nowhere seen alsoSeen
  · intro table
    cases table with
    | own held =>
        obtain ⟨there, read⟩ := holds_iff.mp held
        rw [there, exceptBind_ok, if_pos rfl, read]
        rfl
    | shared absent held given =>
        obtain ⟨there, read⟩ := holds_iff.mp held
        have shared := sharedTable?_eq_ok.mpr ⟨_, read, Or.inr ⟨_, given, rfl⟩⟩
        rw [absent, exceptBind_ok, there, exceptBind_ok, shared]
        rfl
    | toolless absent held silent =>
        obtain ⟨there, read⟩ := holds_iff.mp held
        have shared := sharedTable?_eq_ok.mpr ⟨_, read, Or.inl ⟨silent, rfl⟩⟩
        rw [absent, exceptBind_ok, there, exceptBind_ok, shared]
        rfl
    | nowhere absent neither =>
        rw [absent, exceptBind_ok, neither]
        rfl

theorem table?_eq_error :
    table? host project = .error fault ∧ fault.isSetting = false ↔ Hides host project fault := by
  unfold table?
  simp only
  constructor
  · rintro ⟨refused, untold⟩
    rcases exceptBind_eq_error.mp refused with unseen | ⟨there, seen, refused⟩
    · exact .own (blocks_iff.mpr (Or.inl unseen))
    cases there with
    | true =>
        rcases exceptBind_eq_error.mp refused with unread | ⟨entries, _, impossible⟩
        · exact .own (blocks_iff.mpr (Or.inr ⟨seen, unread, untold⟩))
        · cases impossible
    | false =>
        rcases exceptBind_eq_error.mp refused with unseen | ⟨also, alsoSeen, refused⟩
        · exact .shared seen (blocks_iff.mpr (Or.inl unseen))
        cases also with
        | true =>
            rcases exceptBind_eq_error.mp refused with unread | ⟨inner, _, impossible⟩
            · rcases sharedTable?_eq_error.mp unread with
                unread | ⟨entries, tool, read, given, unlike, rfl⟩
              · exact .shared seen (blocks_iff.mpr (Or.inr ⟨alsoSeen, unread, untold⟩))
              · exact .tool seen (holds_iff.mpr ⟨alsoSeen, read⟩) given unlike
            · cases impossible
        | false => cases refused
  · intro hidden
    cases hidden with
    | own blocked =>
        rcases blocks_iff.mp blocked with unseen | ⟨there, unread, untold⟩
        · rw [unseen]
          exact ⟨rfl, Host.isSetting_of_has unseen⟩
        · rw [there, exceptBind_ok, if_pos rfl, unread]
          exact ⟨rfl, untold⟩
    | shared absent blocked =>
        rcases blocks_iff.mp blocked with unseen | ⟨there, unread, untold⟩
        · rw [absent, exceptBind_ok, unseen]
          exact ⟨rfl, Host.isSetting_of_has unseen⟩
        · rw [absent, exceptBind_ok, there, exceptBind_ok,
            sharedTable?_eq_error.mpr (Or.inl unread)]
          exact ⟨rfl, untold⟩
    | tool absent held given unlike =>
        obtain ⟨there, read⟩ := holds_iff.mp held
        have shared := sharedTable?_eq_error.mpr (Or.inr ⟨_, _, read, given, unlike, rfl⟩)
        rw [absent, exceptBind_ok, there, exceptBind_ok, shared]
        exact ⟨rfl, rfl⟩

end Files

/-! ### What a project sets -/

/-- The settings of a project, which are empty where it has none. -/
inductive AreSettings (host : Host) (project : FilePath) : Entries → Prop
  | given {entries : Entries} {path : FilePath}
      (table : IsTable host project (some (.mapping entries, path))) :
      AreSettings host project entries
  | none (table : IsTable host project none) : AreSettings host project []

/-- A project stops the reading by a fault that is no fault of its settings: its files do, or
the first value that does not fit cannot be written. -/
inductive Stops (host : Host) (project : FilePath) : Fault → Prop
  | hidden {fault : Fault} (hides : Hides host project fault) : Stops host project fault
  | unwritten {entries : Entries} {path : FilePath} {key : String} {value : Value}
      {problem : Document.WritingProblem}
      (table : IsTable host project (some (.mapping entries, path)))
      (first : (misfits entries).head? = some (.unlike key value))
      (unwritten : value.describe = .error problem) :
      Stops host project (.ofWriting problem)

/-- The fields of a configuration are of their kinds, which leaves the patterns of excluded
files to be looked at. -/
def IsTyped (configuration : Configuration) : Prop :=
  ∀ pattern ∈ configuration.excludes, ∃ text, pattern = .text text

section Loading

variable {host : Host} {project : FilePath} {configuration : Configuration} {fault : Fault}

theorem isOf_nil : IsOf project [] configuration ↔ configuration = { project } := by
  have sound : IsOf project [] { project } := by
    refine ⟨rfl, ⟨none, rfl, rfl⟩, ⟨none, rfl, rfl⟩, ⟨none, rfl, rfl⟩, ⟨none, rfl, rfl⟩, rfl,
      ⟨none, rfl, rfl⟩, ⟨none, rfl, rfl⟩, rfl, [], rfl, .nil⟩
  constructor
  · intro given
    exact given.unique sound
  · rintro rfl
    exact sound

/-- Unknown keys are only noted, as the keys of a table are texts. -/
theorem result_noteUnknown {source : String} {entries : Entries}
    (sound : Document.Toml.AreToml entries) :
    (noteUnknown source entries).result = .ok () := by
  induction entries with
  | nil => rfl
  | cons entry rest ih =>
      obtain ⟨key, value⟩ := entry
      obtain ⟨⟨⟨name, rfl⟩, _⟩, later⟩ := Document.Toml.areToml_cons.mp sound
      unfold noteUnknown
      split
      · exact ih later
      · exact ih later

/-- A misfit is told as a fault of the setting unless its value cannot be written. -/
theorem misfit_fault_untold {misfit : Misfit} (source : String) :
    misfit.fault source = fault ∧ fault.isSetting = false ↔ ∃ key value problem,
      misfit = .unlike key value ∧ value.describe = .error problem ∧
        fault = .ofWriting problem := by
  constructor
  · rintro ⟨rfl, untold⟩
    cases misfit with
    | withoutRoot => cases untold
    | unlike key value =>
        cases described : value.describe with
        | ok shown =>
            simp only [Misfit.fault, described] at untold
            cases untold
        | error problem =>
            simp only [Misfit.fault, described]
            exact ⟨key, value, problem, rfl, described, rfl⟩
  · rintro ⟨key, value, problem, rfl, described, rfl⟩
    simp only [Misfit.fault, described]
    exact ⟨trivial, Fault.isSetting_ofWriting problem⟩

/-- A table of settings is read, and whatever is wrong with it is refused. -/
theorem load_of_isTable {entries : Entries} {path : FilePath}
    (table : IsTable host project (some (.mapping entries, path))) :
    (load host project).result = ofSettings project ⟨path.toText, entries⟩ := by
  unfold load
  simp only [Report.result_bind, Report.result_ofExcept, table?_eq_ok.mpr table, exceptBind_ok,
    result_noteUnknown (areToml_of_isTable table), Report.result_debug, Report.result_pure]
  cases ofSettings project ⟨path.toText, entries⟩ <;> rfl

theorem load_of_isTable_none (table : IsTable host project none) :
    (load host project).result = .ok { project } := by
  unfold load
  simp only [Report.result_bind, Report.result_ofExcept, table?_eq_ok.mpr table, exceptBind_ok,
    Report.result_debug, Report.result_pure]

theorem load_of_unlike {value : Value} {path : FilePath}
    (table : IsTable host project (some (value, path)))
    (unlike : ∀ entries, value ≠ .mapping entries) :
    (load host project).result = .error (.setting (.notTable path.toText)) := by
  unfold load
  simp only [Report.result_bind, Report.result_ofExcept, table?_eq_ok.mpr table, exceptBind_ok,
    Report.result_fail]

theorem load_of_error (refused : table? host project = .error fault) :
    (load host project).result = .error fault := by
  unfold load
  simp only [Report.result_bind, Report.result_ofExcept, refused, exceptBind_error]

/-- What is found for a project decides how its reading goes on. -/
theorem load_cases (host : Host) (project : FilePath) :
    let outcome := (load host project).result
    (∃ fault, table? host project = .error fault ∧ outcome = .error fault) ∨
      (IsTable host project none ∧ outcome = .ok { project }) ∨
      (∃ entries path, IsTable host project (some (.mapping entries, path)) ∧
        outcome = ofSettings project ⟨path.toText, entries⟩) ∨
      ∃ path : FilePath, outcome = .error (.setting (.notTable path.toText)) := by
  intro outcome
  cases found : table? host project with
  | error fault => exact Or.inl ⟨fault, rfl, load_of_error found⟩
  | ok settings =>
      have table := table?_eq_ok.mp found
      cases settings with
      | none => exact Or.inr (Or.inl ⟨table, load_of_isTable_none table⟩)
      | some pair =>
          obtain ⟨value, path⟩ := pair
          by_cases like : ∃ entries, value = .mapping entries
          · obtain ⟨entries, rfl⟩ := like
            exact Or.inr (Or.inr (Or.inl ⟨entries, path, table, load_of_isTable table⟩))
          · have unlike : ∀ entries, value ≠ .mapping entries :=
              fun entries same => like ⟨entries, same⟩
            exact Or.inr (Or.inr (Or.inr ⟨path, load_of_unlike table unlike⟩))

theorem load_eq_ok {entries : Entries} (settings : AreSettings host project entries) :
    (load host project).result = .ok configuration ↔ IsOf project entries configuration := by
  cases settings with
  | given table =>
      rw [load_of_isTable table]
      exact (reads_ofSettings project _).ok configuration
  | none table =>
      rw [load_of_isTable_none table, isOf_nil, Except.ok.injEq, eq_comm]

theorem isTyped_iff {entries : Entries} (given : IsOf project entries configuration) :
    configuration.IsTyped ↔
      ∃ texts : List String, IsListed entries "excludes" (texts.map .text) := by
  constructor
  · intro typed
    have texts : configuration.excludes ∈ Set.range (List.map Value.text) := by
      rw [Set.range_list_map]
      intro pattern present
      obtain ⟨text, rfl⟩ := typed pattern present
      exact ⟨text, rfl⟩
    obtain ⟨texts, same⟩ := texts
    refine ⟨texts, ?_⟩
    rw [same]
    exact given.excludes
  · rintro ⟨texts, listed⟩ pattern present
    have same : configuration.excludes = texts.map .text :=
      Value.list.inj (given.excludes.symm.trans listed)
    rw [same] at present
    obtain ⟨text, _, rfl⟩ := List.mem_map.mp present
    exact ⟨text, rfl⟩

end Loading

/-- A project's settings are read exactly as they are written, and every field is of its kind if
and only if the patterns of excluded files are texts.  Any other outcome is a fault of the
settings, unless the files of the project stop the reading by a fault of their own, or the first
value that does not fit cannot be written. -/
theorem load_or_setting_fault (host : Host) (project : FilePath) :
    let outcome := (load host project).result
    (∀ configuration, outcome = .ok configuration ↔
      ∃ entries, AreSettings host project entries ∧ IsOf project entries configuration) ∧
    (∀ entries configuration, AreSettings host project entries → outcome = .ok configuration →
      (configuration.IsTyped ↔
        ∃ texts : List String, IsListed entries "excludes" (texts.map .text))) ∧
    ∀ fault, outcome = .error fault ∧ fault.isSetting = false ↔ Stops host project fault := by
  intro outcome
  refine ⟨?_, ?_, ?_⟩
  · intro configuration
    constructor
    · intro read
      rcases load_cases host project with ⟨fault, _, refused⟩ | ⟨table, made⟩ |
        ⟨entries, path, table, made⟩ | ⟨path, refused⟩
      · cases refused.symm.trans read
      · cases made.symm.trans read
        exact ⟨[], .none table, isOf_nil.mpr rfl⟩
      · exact ⟨entries, .given table, (load_eq_ok (.given table)).mp read⟩
      · cases refused.symm.trans read
    · rintro ⟨entries, settings, given⟩
      exact (load_eq_ok settings).mpr given
  · intro entries configuration settings read
    exact isTyped_iff ((load_eq_ok settings).mp read)
  · intro fault
    constructor
    · rintro ⟨refused, untold⟩
      rcases load_cases host project with ⟨other, hidden, same⟩ | ⟨_, made⟩ |
        ⟨entries, path, table, made⟩ | ⟨path, told⟩
      · cases same.symm.trans refused
        exact .hidden (table?_eq_error.mp ⟨hidden, untold⟩)
      · cases made.symm.trans refused
      · obtain ⟨misfit, first, rfl⟩ := ((reads_ofSettings project _).error fault).mp
          (made.symm.trans refused)
        obtain ⟨key, value, problem, rfl, unwritten, same⟩ :=
          (misfit_fault_untold _).mp ⟨rfl, untold⟩
        rw [same]
        exact .unwritten table first unwritten
      · cases told.symm.trans refused
        cases untold
    · intro stops
      cases stops with
      | hidden hides =>
          obtain ⟨refused, untold⟩ := table?_eq_error.mpr hides
          exact ⟨load_of_error refused, untold⟩
      | @unwritten entries path key value problem table first unwritten =>
          obtain ⟨told, untold⟩ := (misfit_fault_untold path.toText).mpr
            ⟨key, value, problem, rfl, unwritten, rfl⟩
          have refused := ((reads_ofSettings project ⟨path.toText, entries⟩).error _).mpr
            ⟨_, first, told.symm⟩
          exact ⟨(load_of_isTable table).trans refused, untold⟩

def isText : Value → Bool
  | .text _ => true
  | _ => false

def hostOf (name text : String) : Host where
  files := ⟨.ofList [(["p", name], .file (.bytes text.toUTF8.toList))]⟩

def loaded (name text : String) : Except Fault Configuration :=
  (load (hostOf name text) ⟨.relative, ["p"]⟩).result

/-- A number is taken for a pattern of excluded files, and a `tool` that is a number is not told
as a fault of the settings. -/
theorem load_mistyped :
    (∃ configuration, loaded ownFile "[modpatch]\nexcludes = [1]\n" = .ok configuration ∧
      ¬configuration.IsTyped) ∧
    ∃ fault, loaded sharedFile "tool = 5\n" = .error fault ∧ fault.isSetting = false := by
  have numbers : (loaded ownFile "[modpatch]\nexcludes = [1]\n").toOption.map
      (·.excludes.all isText) = some false := by
    decide +kernel
  have untold : (match loaded sharedFile "tool = 5\n" with
      | .ok _ => true
      | .error fault => fault.isSetting) = false := by
    decide +kernel
  obtain ⟨configuration, read, mixed⟩ := exists_ok_of_toOption numbers
  refine ⟨⟨configuration, read, ?_⟩, ?_⟩
  · intro typed
    have texts : configuration.excludes.all isText = true := by
      refine List.all_eq_true.mpr fun pattern present => ?_
      obtain ⟨text, rfl⟩ := typed pattern present
      rfl
    cases mixed.symm.trans texts
  · cases stopped : loaded sharedFile "tool = 5\n" with
    | ok configuration =>
        rw [stopped] at untold
        cases untold
    | error fault =>
        rw [stopped] at untold
        exact ⟨fault, rfl, untold⟩

end ModulePlan.Configuration
