/-
Which listings are refused, and how.

A view is made of a well-formed listing only, and what is wrong with a listing is nearly always
told as a fault of the setting.  The exceptions are the values that stop the reading by a fault of
their own: a scope that is neither null nor a text, a value that has no text, and a path that is
too long to be looked at.
-/

import ModulePlan.Proofs.DependencyListing
import ModulePlan.Proofs.Host
import ModulePlan.Proofs.ScopeValue

namespace ModulePlan

namespace DependencyListing

open Document (Value Graph)

/-! ### Well-formed listings -/

/-- The value that gives a scope, which is null where there is none. -/
def scopeValue (entries : Entries) : Value :=
  (Value.field? entries "scope").getD .null

/-- An entry is a mapping that has a path, and a scope that is missing, blank or known. -/
def IsEntry (listing : DependencyListing) (item : Value) : Prop :=
  ∃ entries, listing.document.resolve item = .mapping entries ∧
    (∃ path, Value.field? entries "path" = some path) ∧
    ∃ scope, Scope.IsNamedBy (scopeValue entries) scope

/-- A document lists dependencies if it is null, or a mapping whose dependencies, if it has any,
are a list of entries. -/
inductive IsListing (listing : DependencyListing) : Value → Prop
  | nothing : IsListing listing .null
  | silent {entries : Entries} (absent : Value.field? entries "dependencies" = none) :
      IsListing listing (.mapping entries)
  | entries {entries : Entries} {value : Value} {items : List Value}
      (given : Value.field? entries "dependencies" = some value)
      (list : listing.document.resolve value = .list items)
      (each : ∀ item ∈ items, listing.IsEntry item) : IsListing listing (.mapping entries)

/-! ### Entries that stop the reading -/

/-- An item is a mapping with a path that can be written. -/
structure Places (listing : DependencyListing) (base : FilePath) (item : Value)
    (entries : Entries) (artifact : FilePath) : Prop where
  mapped : listing.document.resolve item = .mapping entries
  path : ∃ value text, Value.field? entries "path" = some value ∧
    listing.document.toText value = .ok text ∧ artifact = base.join text

/-- The keys of a mapping give these coordinates. -/
def Calls (listing : DependencyListing) (entries : Entries) (artifact : FilePath)
    (coordinates : String) : Prop :=
  match listing.presentField? entries "coordinates" with
  | none => coordinates = artifact.name
  | some value => listing.document.toText value = .ok coordinates

/-- An item has a path, a scope and coordinates. -/
structure Identifies (listing : DependencyListing) (base : FilePath) (item : Value)
    (entries : Entries) (artifact : FilePath) : Prop extends
    Places listing base item entries artifact where
  scope : ∃ scope, Scope.IsNamedBy (scopeValue entries) scope
  coordinates : ∃ coordinates, listing.Calls entries artifact coordinates

/-- The names that a mapping requires. -/
def Requires (listing : DependencyListing) (entries : Entries) (names : List Value) : Prop :=
  match (listing.presentField? entries "requires").map listing.document.resolve with
  | none => names = []
  | some value => value = .list names

/-- A value is of no kind that scopes are of. -/
inductive IsNoScope : Value → Fault → Prop
  | bytes {data : List UInt8} (visible : data.all Scope.isBlankByte = false) :
      IsNoScope (.bytes data) (.kind .scopeOfBytes)
  | other {value : Value} (unlike : value ≠ .null ∧ (∀ text, value ≠ .text text) ∧
      ∀ data, value ≠ .bytes data) : IsNoScope value (.kind .scopeNotText)

/-- An item stops the reading by a fault that is no fault of the listing. -/
inductive Stops (listing : DependencyListing) (host : Host) (base : FilePath) (item : Value) :
    Fault → Prop
  | path {entries : Entries} {value : Value} {problem : Document.WritingProblem}
      (mapped : listing.document.resolve item = .mapping entries)
      (given : Value.field? entries "path" = some value)
      (unwritten : listing.document.toText value = .error problem) :
      Stops listing host base item (.ofWriting problem)
  | scope {entries : Entries} {artifact : FilePath} {fault : Fault}
      (placed : listing.Places base item entries artifact)
      (unfit : IsNoScope (scopeValue entries) fault) : Stops listing host base item fault
  | coordinates {entries : Entries} {artifact : FilePath} {scope : Scope} {value : Value}
      {problem : Document.WritingProblem} (placed : listing.Places base item entries artifact)
      (named : Scope.IsNamedBy (scopeValue entries) scope)
      (given : listing.presentField? entries "coordinates" = some value)
      (unwritten : listing.document.toText value = .error problem) :
      Stops listing host base item (.ofWriting problem)
  | name {entries : Entries} {artifact : FilePath} {module : Value} {names : List Value}
      {problem : Document.WritingProblem}
      (identified : listing.Identifies base item entries artifact)
      (declared : listing.presentField? entries "module" = some module)
      (required : listing.Requires entries names)
      (unwritten : listing.document.toText module = .error problem) :
      Stops listing host base item (.ofWriting problem)
  | required {entries : Entries} {artifact : FilePath} {module : Value} {name : String}
      {before after : List Value} {value : Value} {problem : Document.WritingProblem}
      (identified : listing.Identifies base item entries artifact)
      (declared : listing.presentField? entries "module" = some module)
      (required : listing.Requires entries (before ++ value :: after))
      (written : listing.document.toText module = .ok name)
      (earlier : ∀ other ∈ before, ∃ text, listing.document.toText other = .ok text)
      (unwritten : listing.document.toText value = .error problem) :
      Stops listing host base item (.ofWriting problem)
  | unseen {entries : Entries} {artifact : FilePath} {fault : Fault}
      (identified : listing.Identifies base item entries artifact)
      (undeclared : listing.presentField? entries "module" = none)
      (refused : host.has artifact = .error fault) : Stops listing host base item fault

/-- An item is taken into a view: whatever is asked of it can be written, and if it declares no
module its artifact can be looked at. -/
inductive IsTaken (listing : DependencyListing) (host : Host) (base : FilePath) (item : Value) :
    Prop
  | declared {entries : Entries} {artifact : FilePath} {module : Value} {names : List Value}
      {name : String} (identified : listing.Identifies base item entries artifact)
      (declared : listing.presentField? entries "module" = some module)
      (required : listing.Requires entries names)
      (written : listing.document.toText module = .ok name)
      (each : ∀ other ∈ names, ∃ text, listing.document.toText other = .ok text) :
      IsTaken listing host base item
  | undeclared {entries : Entries} {artifact : FilePath} {there : Bool}
      (identified : listing.Identifies base item entries artifact)
      (undeclared : listing.presentField? entries "module" = none)
      (seen : host.has artifact = .ok there) : IsTaken listing host base item

/-! ### The parts of an entry -/

section Parts

variable {listing : DependencyListing} {entries : Entries} {fault : Fault}

theorem text_eq_error {value : Value} : listing.text value = .error fault ↔
    ∃ problem, listing.document.toText value = .error problem ∧ fault = .ofWriting problem := by
  unfold DependencyListing.text Fault.written
  cases listing.document.toText value with
  | error problem => simp [Except.mapError, eq_comm]
  | ok written => simp [Except.mapError]

theorem pathOf_eq_ok (number : Nat) {item path : Value} :
    listing.pathOf number item = .ok (entries, path) ↔
      listing.document.resolve item = .mapping entries ∧
        Value.field? entries "path" = some path := by
  constructor
  · exact entries_of_pathOf
  · rintro ⟨mapped, given⟩
    unfold pathOf
    rw [mapped]
    simp only [given]

theorem isSetting_of_pathOf {number : Nat} {item : Value}
    (refused : listing.pathOf number item = .error fault) : fault.isSetting = true := by
  unfold pathOf at refused
  split at refused
  · split at refused <;> cases refused
    rfl
  · cases refused
    rfl

theorem scopeOf_eq_ok {scope : Scope} :
    listing.scopeOf entries = .ok scope ↔ Scope.IsNamedBy (scopeValue entries) scope := by
  rw [← Scope.ofValue_eq_ok_iff]
  constructor
  · exact scope_of_scopeOf
  · intro named
    unfold scopeValue at named
    unfold scopeOf
    rw [named]

theorem scopeOf_eq_error (listing : DependencyListing) :
    listing.scopeOf entries = .error fault ∧ fault.isSetting = false ↔
      IsNoScope (scopeValue entries) fault := by
  unfold scopeOf scopeValue
  generalize (Value.field? entries "scope").getD .null = value
  constructor
  · rintro ⟨refused, untold⟩
    cases value with
    | null => cases refused
    | text text =>
        rw [Scope.ofValue] at refused
        cases known : Scope.parse? (some text) with
        | none =>
            rw [known] at refused
            cases refused
            cases untold
        | some scope =>
            rw [known] at refused
            cases refused
    | bytes data =>
        rw [Scope.ofValue] at refused
        cases empty : data.all Scope.isBlankByte with
        | true =>
            rw [empty] at refused
            cases refused
        | false =>
            rw [empty] at refused
            cases refused
            exact .bytes empty
    | _ =>
        cases refused
        refine .other ⟨?_, ?_, ?_⟩
        · simp
        · simp
        · simp
  · intro unfit
    cases unfit with
    | bytes visible =>
        rw [Scope.ofValue, visible]
        exact ⟨rfl, rfl⟩
    | other unlike =>
        cases value with
        | null => exact absurd rfl unlike.1
        | text text => exact absurd rfl (unlike.2.1 text)
        | bytes data => exact absurd rfl (unlike.2.2 data)
        | _ => exact ⟨rfl, rfl⟩

theorem coordinatesOf_eq_ok {artifact : FilePath} {coordinates : String} :
    listing.coordinatesOf entries artifact = .ok coordinates ↔
      listing.Calls entries artifact coordinates := by
  unfold coordinatesOf Calls
  cases listing.presentField? entries "coordinates" with
  | none => exact ⟨fun same => (Except.ok.inj same).symm, fun same => congrArg _ same.symm⟩
  | some value => exact text_eq_ok

theorem coordinatesOf_eq_error (artifact : FilePath) :
    listing.coordinatesOf entries artifact = .error fault ↔
      ∃ value problem, listing.presentField? entries "coordinates" = some value ∧
        listing.document.toText value = .error problem ∧ fault = .ofWriting problem := by
  unfold coordinatesOf
  cases listing.presentField? entries "coordinates" with
  | none => simp
  | some value => simp [text_eq_error]

theorem requiresOf_eq_ok {coordinates : String} {names : List Value} :
    listing.requiresOf coordinates entries = .ok names ↔ listing.Requires entries names := by
  unfold requiresOf Requires
  cases (listing.presentField? entries "requires").map listing.document.resolve with
  | none => simp [eq_comm]
  | some value => cases value <;> simp

theorem isSetting_of_requiresOf {coordinates : String}
    (refused : listing.requiresOf coordinates entries = .error fault) :
    fault.isSetting = true := by
  unfold requiresOf at refused
  split at refused <;> cases refused
  rfl

/-- A module is declared where its name and the names that it requires can be written. -/
theorem descriptorOf?_completes_iff (coordinates : String) {module : Value}
    (given : listing.presentField? entries "module" = some module) :
    (∃ descriptor, listing.descriptorOf? coordinates entries = .ok descriptor) ↔
      ∃ names name, listing.Requires entries names ∧ listing.document.toText module = .ok name ∧
        ∀ other ∈ names, ∃ text, listing.document.toText other = .ok text := by
  unfold descriptorOf?
  rw [given]
  constructor
  · rintro ⟨descriptor, read⟩
    obtain ⟨names, required, read⟩ := exceptBind_eq_ok.mp read
    obtain ⟨name, written, read⟩ := exceptBind_eq_ok.mp read
    obtain ⟨texts, each, _⟩ := exceptBind_eq_ok.mp read
    refine ⟨names, name, requiresOf_eq_ok.mp required, text_eq_ok.mp written, ?_⟩
    intro other present
    obtain ⟨text, told⟩ := mapM_completes_iff.mp ⟨texts, each⟩ other present
    exact ⟨text, text_eq_ok.mp told⟩
  · rintro ⟨names, name, required, written, each⟩
    have texts : ∀ other ∈ names, ∃ text, listing.text other = .ok text := by
      intro other present
      obtain ⟨text, told⟩ := each other present
      exact ⟨text, text_eq_ok.mpr told⟩
    obtain ⟨requires, told⟩ := mapM_completes_iff.mpr texts
    simp only [requiresOf_eq_ok.mpr required, text_eq_ok.mpr written, told, exceptBind_ok]
    exact ⟨_, rfl⟩

/-- The name of a module stops the reading before the names that it requires. -/
theorem descriptorOf?_eq_error (coordinates : String) {module : Value}
    (given : listing.presentField? entries "module" = some module) :
    listing.descriptorOf? coordinates entries = .error fault ∧ fault.isSetting = false ↔
      ∃ names problem, listing.Requires entries names ∧ fault = .ofWriting problem ∧
        (listing.document.toText module = .error problem ∨
          ∃ name before value after, listing.document.toText module = .ok name ∧
            names = before ++ value :: after ∧
            (∀ other ∈ before, ∃ text, listing.document.toText other = .ok text) ∧
            listing.document.toText value = .error problem) := by
  unfold descriptorOf?
  rw [given]
  constructor
  · rintro ⟨refused, untold⟩
    rcases exceptBind_eq_error.mp refused with unread | ⟨names, required, refused⟩
    · rw [isSetting_of_requiresOf unread] at untold
      cases untold
    have requires := requiresOf_eq_ok.mp required
    rcases exceptBind_eq_error.mp refused with unread | ⟨name, written, refused⟩
    · obtain ⟨problem, unwritten, same⟩ := text_eq_error.mp unread
      exact ⟨names, problem, requires, same, Or.inl unwritten⟩
    rcases exceptBind_eq_error.mp refused with unread | ⟨texts, _, impossible⟩
    · obtain ⟨before, value, after, split, earlier, here⟩ := mapM_eq_error.mp unread
      obtain ⟨problem, unwritten, same⟩ := text_eq_error.mp here
      refine ⟨names, problem, requires, same, Or.inr ⟨name, before, value, after,
        text_eq_ok.mp written, split, ?_, unwritten⟩⟩
      intro other present
      obtain ⟨text, told⟩ := earlier other present
      exact ⟨text, text_eq_ok.mp told⟩
    · cases impossible
  · rintro ⟨names, problem, required, rfl, cause⟩
    refine ⟨exceptBind_eq_error.mpr (Or.inr ⟨names, requiresOf_eq_ok.mpr required, ?_⟩),
      Fault.isSetting_ofWriting problem⟩
    rcases cause with unwritten | ⟨name, before, value, after, written, rfl, earlier, unwritten⟩
    · exact exceptBind_eq_error.mpr (Or.inl (text_eq_error.mpr ⟨problem, unwritten, rfl⟩))
    · refine exceptBind_eq_error.mpr (Or.inr ⟨name, text_eq_ok.mpr written, ?_⟩)
      refine exceptBind_eq_error.mpr (Or.inl (mapM_eq_error.mpr ⟨before, value, after, rfl, ?_,
        text_eq_error.mpr ⟨problem, unwritten, rfl⟩⟩))
      intro other present
      obtain ⟨text, told⟩ := earlier other present
      exact ⟨text, text_eq_ok.mpr told⟩

theorem isSome_of_descriptorOf? {coordinates : String} {module : Value}
    {descriptor : Option ModuleDescriptor}
    (given : listing.presentField? entries "module" = some module)
    (read : listing.descriptorOf? coordinates entries = .ok descriptor) :
    descriptor.isSome = true := by
  have declares := declares_of_descriptorOf? read
  rw [given] at declares
  obtain ⟨declared, rfl, _⟩ := declares
  rfl

theorem descriptorOf?_of_undeclared {coordinates : String}
    (undeclared : listing.presentField? entries "module" = none) :
    listing.descriptorOf? coordinates entries = .ok none := by
  unfold descriptorOf?
  rw [undeclared]

end Parts

/-! ### One entry -/

section Entry

variable {listing : DependencyListing} {host : Host} {base : FilePath} {view : DependencyView}
  {number : Nat} {item : Value} {fault : Fault}

/-- The last part of taking an item in: its artifact is looked at, unless it is a declared
module. -/
def place (host : Host) (view : DependencyView) (dependency : Dependency) (artifact : FilePath)
    (descriptor : Option ModuleDescriptor) : Except Fault DependencyView :=
  if descriptor.isSome then .ok (view.add dependency artifact descriptor true)
  else (host.has artifact).map fun there => view.add dependency artifact none there

theorem result_addItem : (listing.addItem host base view number item).result =
    (do
      let (entries, path) ← listing.pathOf number item
      let artifact := base.join (← listing.text path)
      let scope ← listing.scopeOf entries
      let coordinates ← listing.coordinatesOf entries artifact
      let descriptor ← listing.descriptorOf? coordinates entries
      place host view ⟨coordinates, scope⟩ artifact descriptor) := by
  unfold addItem
  simp only [Report.result_bind, Report.result_ofExcept]
  -- The parts are the same up to the last one, which is split as the item is read.
  refine bind_congr fun found => bind_congr fun text => bind_congr fun scope =>
    bind_congr fun coordinates => bind_congr fun descriptor => ?_
  unfold place
  split
  · rfl
  · rw [Report.result_bind, Report.result_ofExcept]
    cases host.has (base.join text) with
    | error fault => rfl
    | ok there => cases there <;> rfl

theorem place_completes_iff {dependency : Dependency} {artifact : FilePath}
    {descriptor : Option ModuleDescriptor} :
    (∃ later, place host view dependency artifact descriptor = .ok later) ↔
      (descriptor = none → ∃ there, host.has artifact = .ok there) := by
  unfold place
  cases descriptor with
  | some declared => simp
  | none => cases host.has artifact <;> simp [Except.map]

theorem place_eq_error {dependency : Dependency} {artifact : FilePath}
    {descriptor : Option ModuleDescriptor} :
    place host view dependency artifact descriptor = .error fault ↔
      descriptor = none ∧ host.has artifact = .error fault := by
  unfold place
  cases descriptor with
  | some declared => simp
  | none => cases host.has artifact <;> simp [Except.map]

/-- From where an item has a path, its scope is read and what follows. -/
theorem result_of_places {entries : Entries} {artifact : FilePath}
    (placed : listing.Places base item entries artifact) :
    (listing.addItem host base view number item).result =
      (do
        let scope ← listing.scopeOf entries
        let coordinates ← listing.coordinatesOf entries artifact
        let descriptor ← listing.descriptorOf? coordinates entries
        place host view ⟨coordinates, scope⟩ artifact descriptor) := by
  obtain ⟨mapped, path, text, given, written, rfl⟩ := placed
  have found := (pathOf_eq_ok number).mpr ⟨mapped, given⟩
  rw [result_addItem]
  simp only [found, text_eq_ok.mpr written, exceptBind_ok]

/-- From where an item has a path, a scope and coordinates, only its module and its artifact
count. -/
theorem exists_rest_of_identifies (host : Host) (view : DependencyView) (number : Nat)
    {entries : Entries} {artifact : FilePath}
    (identified : listing.Identifies base item entries artifact) :
    ∃ dependency coordinates, (listing.addItem host base view number item).result =
      listing.descriptorOf? coordinates entries >>= place host view dependency artifact := by
  obtain ⟨placed, ⟨scope, named⟩, coordinates, called⟩ := identified
  refine ⟨⟨coordinates, scope⟩, coordinates, ?_⟩
  rw [result_of_places placed]
  simp only [scopeOf_eq_ok.mpr named, coordinatesOf_eq_ok.mpr called, exceptBind_ok]

theorem addItem_completes_iff (view : DependencyView) (number : Nat) :
    (∃ later, (listing.addItem host base view number item).result = .ok later) ↔
      listing.IsTaken host base item := by
  constructor
  · rintro ⟨later, read⟩
    rw [result_addItem] at read
    obtain ⟨⟨entries, path⟩, found, read⟩ := exceptBind_eq_ok.mp read
    obtain ⟨text, written, read⟩ := exceptBind_eq_ok.mp read
    obtain ⟨scope, named, read⟩ := exceptBind_eq_ok.mp read
    obtain ⟨coordinates, called, read⟩ := exceptBind_eq_ok.mp read
    obtain ⟨descriptor, described, read⟩ := exceptBind_eq_ok.mp read
    obtain ⟨mapped, given⟩ := (pathOf_eq_ok _).mp found
    have identified : listing.Identifies base item entries (base.join text) :=
      ⟨⟨mapped, path, text, given, text_eq_ok.mp written, rfl⟩,
        ⟨scope, scopeOf_eq_ok.mp named⟩, coordinates, coordinatesOf_eq_ok.mp called⟩
    cases module : listing.presentField? entries "module" with
    | none =>
        rw [descriptorOf?_of_undeclared module] at described
        cases described
        obtain ⟨there, seen⟩ := place_completes_iff.mp ⟨later, read⟩ rfl
        exact .undeclared identified module seen
    | some value =>
        obtain ⟨names, name, required, told, each⟩ :=
          (descriptorOf?_completes_iff _ module).mp ⟨descriptor, described⟩
        exact .declared identified module required told each
  · intro taken
    cases taken with
    | declared identified declared required written each =>
        obtain ⟨dependency, coordinates, rest⟩ :=
          exists_rest_of_identifies host view number identified
        obtain ⟨descriptor, described⟩ :=
          (descriptorOf?_completes_iff coordinates declared).mpr ⟨_, _, required, written, each⟩
        have present := isSome_of_descriptorOf? declared described
        rw [rest, described, exceptBind_ok]
        refine place_completes_iff.mpr fun absent => ?_
        rw [absent] at present
        cases present
    | undeclared identified undeclared seen =>
        obtain ⟨dependency, coordinates, rest⟩ :=
          exists_rest_of_identifies host view number identified
        rw [rest, descriptorOf?_of_undeclared undeclared, exceptBind_ok]
        exact place_completes_iff.mpr fun _ => ⟨_, seen⟩

theorem addItem_eq_error (view : DependencyView) (number : Nat) :
    (listing.addItem host base view number item).result = .error fault ∧
        fault.isSetting = false ↔
      listing.Stops host base item fault := by
  constructor
  · rintro ⟨refused, untold⟩
    rw [result_addItem] at refused
    rcases exceptBind_eq_error.mp refused with unread | ⟨⟨entries, path⟩, found, refused⟩
    · rw [isSetting_of_pathOf unread] at untold
      cases untold
    obtain ⟨mapped, given⟩ := (pathOf_eq_ok _).mp found
    rcases exceptBind_eq_error.mp refused with unread | ⟨text, written, refused⟩
    · obtain ⟨problem, unwritten, rfl⟩ := text_eq_error.mp unread
      exact .path mapped given unwritten
    have placed : listing.Places base item entries (base.join text) :=
      ⟨mapped, path, text, given, text_eq_ok.mp written, rfl⟩
    rcases exceptBind_eq_error.mp refused with unread | ⟨scope, named, refused⟩
    · exact .scope placed ((scopeOf_eq_error listing).mp ⟨unread, untold⟩)
    have known := scopeOf_eq_ok.mp named
    rcases exceptBind_eq_error.mp refused with unread | ⟨coordinates, called, refused⟩
    · obtain ⟨value, problem, given, unwritten, rfl⟩ := (coordinatesOf_eq_error _).mp unread
      exact .coordinates placed known given unwritten
    have identified : listing.Identifies base item entries (base.join text) :=
      ⟨placed, ⟨scope, known⟩, coordinates, coordinatesOf_eq_ok.mp called⟩
    cases module : listing.presentField? entries "module" with
    | none =>
        rw [descriptorOf?_of_undeclared module, exceptBind_ok, place_eq_error] at refused
        exact .unseen identified module refused.2
    | some value =>
        rcases exceptBind_eq_error.mp refused with unread | ⟨descriptor, described, refused⟩
        · obtain ⟨names, problem, required, rfl, cause⟩ :=
            (descriptorOf?_eq_error _ module).mp ⟨unread, untold⟩
          rcases cause with unwritten | ⟨name, before, value, after, told, rfl, earlier, unwritten⟩
          · exact .name identified module required unwritten
          · exact .required identified module required told earlier unwritten
        · have present := isSome_of_descriptorOf? module described
          rw [(place_eq_error.mp refused).1] at present
          cases present
  · intro stops
    cases stops with
    | path mapped given unwritten =>
        have found := (pathOf_eq_ok number).mpr ⟨mapped, given⟩
        have unread := text_eq_error.mpr ⟨_, unwritten, rfl⟩
        refine ⟨?_, Fault.isSetting_ofWriting _⟩
        rw [result_addItem]
        simp only [found, unread, exceptBind_ok, exceptBind_error]
    | scope placed unfit =>
        obtain ⟨unread, untold⟩ := (scopeOf_eq_error listing).mpr unfit
        rw [result_of_places placed, unread]
        exact ⟨rfl, untold⟩
    | @coordinates entries artifact _ _ _ placed named given unwritten =>
        have unread := (coordinatesOf_eq_error artifact).mpr
          ⟨_, _, given, unwritten, rfl⟩
        rw [result_of_places placed, scopeOf_eq_ok.mpr named, exceptBind_ok, unread]
        exact ⟨rfl, Fault.isSetting_ofWriting _⟩
    | name identified declared required unwritten =>
        obtain ⟨dependency, coordinates, rest⟩ :=
          exists_rest_of_identifies host view number identified
        obtain ⟨unread, untold⟩ := (descriptorOf?_eq_error coordinates declared).mpr
          ⟨_, _, required, rfl, Or.inl unwritten⟩
        rw [rest, unread]
        exact ⟨rfl, untold⟩
    | required identified declared required written earlier unwritten =>
        obtain ⟨dependency, coordinates, rest⟩ :=
          exists_rest_of_identifies host view number identified
        obtain ⟨unread, untold⟩ := (descriptorOf?_eq_error coordinates declared).mpr
          ⟨_, _, required, rfl, Or.inr ⟨_, _, _, _, written, rfl, earlier, unwritten⟩⟩
        rw [rest, unread]
        exact ⟨rfl, untold⟩
    | unseen identified undeclared refused =>
        obtain ⟨dependency, coordinates, rest⟩ :=
          exists_rest_of_identifies host view number identified
        rw [rest, descriptorOf?_of_undeclared undeclared, exceptBind_ok]
        exact ⟨place_eq_error.mpr ⟨rfl, refused⟩, Host.isSetting_of_has refused⟩

end Entry

/-! ### Whole listings -/

section Listing

variable {listing : DependencyListing} {host : Host} {base : FilePath} {view : DependencyView}
  {number : Nat} {items : List Value} {fault : Fault}

theorem addItems_completes_iff :
    (∃ later, (listing.addItems host base view number items).result = .ok later) ↔
      ∀ item ∈ items, listing.IsTaken host base item := by
  induction items generalizing view number with
  | nil => exact ⟨fun _ => List.forall_mem_nil _, fun _ => ⟨view, rfl⟩⟩
  | cons item rest ih =>
      rw [List.forall_mem_cons, addItems, Report.result_bind]
      constructor
      · rintro ⟨later, read⟩
        obtain ⟨next, first, read⟩ := exceptBind_eq_ok.mp read
        exact ⟨(addItem_completes_iff _ _).mp ⟨next, first⟩, ih.mp ⟨later, read⟩⟩
      · rintro ⟨first, others⟩
        obtain ⟨next, taken⟩ := (addItem_completes_iff _ _).mpr first
        rw [taken, exceptBind_ok]
        exact ih.mpr others

/-- The first item that is not taken in decides how a listing is refused. -/
theorem addItems_eq_error :
    (listing.addItems host base view number items).result = .error fault ∧
        fault.isSetting = false ↔
      ∃ before item after, items = before ++ item :: after ∧
        (∀ other ∈ before, listing.IsTaken host base other) ∧
        listing.Stops host base item fault := by
  induction items generalizing view number with
  | nil =>
      constructor
      · rintro ⟨impossible, _⟩
        cases impossible
      · rintro ⟨before, item, after, same, _⟩
        cases before <;> cases same
  | cons first rest ih =>
      rw [addItems, Report.result_bind]
      constructor
      · rintro ⟨refused, untold⟩
        rcases exceptBind_eq_error.mp refused with here | ⟨next, taken, refused⟩
        · exact ⟨[], first, rest, rfl, List.forall_mem_nil _,
            (addItem_eq_error _ _).mp ⟨here, untold⟩⟩
        · obtain ⟨before, item, after, rfl, earlier, stops⟩ := ih.mp ⟨refused, untold⟩
          exact ⟨first :: before, item, after, rfl, List.forall_mem_cons.mpr
            ⟨(addItem_completes_iff _ _).mp ⟨next, taken⟩, earlier⟩, stops⟩
      · rintro ⟨before, item, after, same, earlier, stops⟩
        cases before with
        | nil =>
            cases same
            obtain ⟨here, untold⟩ :=
              (addItem_eq_error view number).mpr stops
            rw [here]
            exact ⟨rfl, untold⟩
        | cons other before =>
            cases same
            obtain ⟨taken, earlier⟩ := List.forall_mem_cons.mp earlier
            obtain ⟨next, made⟩ :=
              (addItem_completes_iff view number).mpr taken
            rw [made, exceptBind_ok]
            exact ih.mpr ⟨before, item, after, rfl, earlier, stops⟩

theorem isSetting_of_items (refused : listing.items = .error fault) : fault.isSetting = true := by
  unfold DependencyListing.items at refused
  split at refused
  · cases refused
  · split at refused <;> cases refused
    rfl
  · cases refused
    rfl

theorem isEntry_of_isTaken {item : Value} (taken : listing.IsTaken host base item) :
    listing.IsEntry item := by
  have entry : ∀ {entries artifact}, listing.Identifies base item entries artifact →
      listing.IsEntry item := by
    intro entries artifact identified
    obtain ⟨path, _, given, _⟩ := identified.path
    exact ⟨entries, identified.mapped, ⟨path, given⟩, identified.scope⟩
  cases taken with
  | declared identified => exact entry identified
  | undeclared identified => exact entry identified

theorem isListing_of_items (listed : listing.items = .ok items)
    (each : ∀ item ∈ items, listing.IsEntry item) :
    listing.IsListing (listing.document.resolve listing.document.root) := by
  unfold DependencyListing.items at listed
  split at listed
  · rename_i resolved
    rw [resolved]
    exact .nothing
  · rename_i entries resolved
    rw [resolved]
    cases given : Value.field? entries "dependencies" with
    | none => exact .silent given
    | some value =>
        rw [given, Option.map_some] at listed
        cases list : listing.document.resolve value with
        | list others =>
            rw [list] at listed
            cases listed
            exact .entries given list each
        | _ =>
            rw [list] at listed
            cases listed
  · cases listed

end Listing

/-- A listing gives a view if all its items are taken in, and then the document is well formed.
Any other outcome is a fault of the setting, unless the first item that is not taken in stops the
reading by a fault of its own: its scope is of another kind, a part of it cannot be written, or
its path cannot be looked at. -/
theorem view_or_setting_fault (host : Host) (base : FilePath) (source : String)
    (document : Graph) :
    let listing : DependencyListing := ⟨document, source⟩
    let outcome := (DependencyListing.view host base source document).result
    ((∃ view, outcome = .ok view) ↔
      ∃ items, listing.items = .ok items ∧ ∀ item ∈ items, listing.IsTaken host base item) ∧
    (∀ view, outcome = .ok view → listing.IsListing (document.resolve document.root)) ∧
    ∀ fault, outcome = .error fault ∧ fault.isSetting = false ↔
      ∃ before item after, listing.items = .ok (before ++ item :: after) ∧
        (∀ other ∈ before, listing.IsTaken host base other) ∧
        listing.Stops host base item fault := by
  intro listing outcome
  have read : outcome =
      listing.items >>= fun items => (listing.addItems host base {} 1 items).result := by
    unfold outcome DependencyListing.view
    simp only [Report.result_bind, Report.result_ofExcept, Report.result_debug,
      Report.result_pure, exceptBind_ok]
    refine bind_congr fun items => ?_
    cases (listing.addItems host base {} 1 items).result <;> rfl
  have completes : (∃ view, outcome = .ok view) ↔
      ∃ items, listing.items = .ok items ∧ ∀ item ∈ items, listing.IsTaken host base item := by
    rw [read]
    constructor
    · rintro ⟨view, made⟩
      obtain ⟨items, listed, taken⟩ := exceptBind_eq_ok.mp made
      exact ⟨items, listed, addItems_completes_iff.mp ⟨view, taken⟩⟩
    · rintro ⟨items, listed, each⟩
      rw [listed, exceptBind_ok]
      exact addItems_completes_iff.mpr each
  refine ⟨completes, ?_, ?_⟩
  · intro view made
    obtain ⟨items, listed, each⟩ := completes.mp ⟨view, made⟩
    exact isListing_of_items listed fun item present => isEntry_of_isTaken (each item present)
  · intro fault
    rw [read]
    constructor
    · rintro ⟨refused, untold⟩
      rcases exceptBind_eq_error.mp refused with unread | ⟨items, listed, refused⟩
      · rw [isSetting_of_items unread] at untold
        cases untold
      · obtain ⟨before, item, after, rfl, earlier, stops⟩ :=
          addItems_eq_error.mp ⟨refused, untold⟩
        exact ⟨before, item, after, listed, earlier, stops⟩
    · rintro ⟨before, item, after, listed, earlier, stops⟩
      rw [listed, exceptBind_ok]
      exact addItems_eq_error.mpr ⟨before, item, after, rfl, earlier, stops⟩

/-- A listing of one dependency, whose scope is a number. -/
def scopeNumber : Graph :=
  .ofValue (.mapping [(.text "dependencies",
    .list [.mapping [(.text "path", .text "a.jar"), (.text "scope", .int 5)]])])

/-- A scope that is a number is not told as a fault of the listing. -/
theorem view_scope_untold :
    ∃ fault, (DependencyListing.view {} (.ofText "deps") "<data>" scopeNumber).result =
      .error fault ∧ fault.isSetting = false :=
  ⟨.kind .scopeNotText, rfl, rfl⟩

end DependencyListing

end ModulePlan
