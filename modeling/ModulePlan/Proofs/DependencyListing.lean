/-
What a view keeps of a listing.

A view is made of a listing entry by entry, and remembers a path for each dependency and a
module for each path.  What a later entry says replaces what an earlier one said of the same
dependency or the same path, so a view keeps a whole listing only if no two entries meet.
-/

import ModulePlan.DependencyListing
import ModulePlan.Proofs.KeyedList
import ModulePlan.Proofs.Report

namespace ModulePlan.DependencyListing

open Document (Value Graph)

/-! ### Entries -/

/-- One dependency of a listing: its coordinates and scope, its path, and the module that it is
declared to be. -/
structure Listed where
  dependency : Dependency
  path : FilePath
  descriptor : Option ModuleDescriptor

/-- The keys of a mapping declare a module. -/
structure Declares (listing : DependencyListing) (entries : Entries) (module : Value)
    (descriptor : ModuleDescriptor) : Prop where
  name : listing.document.toText module = .ok descriptor.name
  requires :
    match (listing.presentField? entries "requires").map listing.document.resolve with
    | none => descriptor.requires = []
    | some (.list names) => List.Forall₂
      (fun name required => listing.document.toText name = .ok required) names
      descriptor.requires
    | some _ => False
  automatic : descriptor.automatic = (listing.presentField? entries "automatic").isSome

/-- The keys of a mapping give this dependency, whose path is seen from a base. -/
structure Gives (listing : DependencyListing) (base : FilePath) (entries : Entries)
    (listed : Listed) : Prop where
  path : ∃ value text, Value.field? entries "path" = some value ∧
    listing.document.toText value = .ok text ∧ listed.path = base.join text
  scope : Scope.ofValue ((Value.field? entries "scope").getD .null) = .ok listed.dependency.scope
  coordinates :
    match listing.presentField? entries "coordinates" with
    | none => listed.dependency.coordinates = listed.path.name
    | some value => listing.document.toText value = .ok listed.dependency.coordinates
  descriptor :
    match listing.presentField? entries "module" with
    | none => listed.descriptor = none
    | some module => ∃ descriptor, listed.descriptor = some descriptor ∧
      listing.Declares entries module descriptor

/-- An item of a listing is a mapping that gives this dependency. -/
def Lists (listing : DependencyListing) (base : FilePath) (item : Value) (listed : Listed) : Prop :=
  ∃ entries, listing.document.resolve item = .mapping entries ∧ listing.Gives base entries listed

/-! ### Reading an entry -/

variable {listing : DependencyListing} {host : Host} {base : FilePath} {entries : Entries}

theorem text_eq_ok {value : Value} {text : String} :
    listing.text value = .ok text ↔ listing.document.toText value = .ok text := by
  unfold DependencyListing.text Fault.written
  cases listing.document.toText value with
  | error problem => simp [Except.mapError]
  | ok written => simp [Except.mapError]

theorem scope_of_scopeOf {scope : Scope} (read : listing.scopeOf entries = .ok scope) :
    Scope.ofValue ((Value.field? entries "scope").getD .null) = .ok scope := by
  unfold scopeOf at read
  split at read
  · rename_i found named
    cases read
    exact named
  · cases read
  · cases read

theorem entries_of_pathOf {number : Nat} {item path : Value}
    (found : listing.pathOf number item = .ok (entries, path)) :
    listing.document.resolve item = .mapping entries ∧
      Value.field? entries "path" = some path := by
  unfold pathOf at found
  split at found
  · rename_i mapped resolved
    split at found
    · rename_i value given
      cases found
      exact ⟨resolved, given⟩
    · cases found
  · cases found

theorem coordinates_of_coordinatesOf {artifact : FilePath} {coordinates : String}
    (read : listing.coordinatesOf entries artifact = .ok coordinates) :
    match listing.presentField? entries "coordinates" with
    | none => coordinates = artifact.name
    | some value => listing.document.toText value = .ok coordinates := by
  unfold coordinatesOf at read
  split at read
  · rename_i value given
    rw [given]
    exact text_eq_ok.mp read
  · rename_i absent
    rw [absent]
    cases read
    rfl

theorem declares_of_descriptorOf? {coordinates : String} {descriptor : Option ModuleDescriptor}
    (read : listing.descriptorOf? coordinates entries = .ok descriptor) :
    match listing.presentField? entries "module" with
    | none => descriptor = none
    | some module => ∃ declared, descriptor = some declared ∧
      listing.Declares entries module declared := by
  unfold descriptorOf? at read
  cases given : listing.presentField? entries "module" with
  | none =>
      rw [given] at read
      cases read
      rfl
  | some module =>
      rw [given] at read
      obtain ⟨required, requiresRead, read⟩ := exceptBind_eq_ok.mp read
      obtain ⟨name, nameRead, read⟩ := exceptBind_eq_ok.mp read
      obtain ⟨requires, namesRead, read⟩ := exceptBind_eq_ok.mp read
      cases read
      refine ⟨_, rfl, text_eq_ok.mp nameRead, ?_, rfl⟩
      unfold requiresOf at requiresRead
      cases asked : (listing.presentField? entries "requires").map listing.document.resolve with
      | none =>
          rw [asked] at requiresRead
          cases requiresRead
          cases namesRead
          rfl
      | some value =>
          rw [asked] at requiresRead
          cases value with
          | list names =>
              cases requiresRead
              exact (forall₂_of_mapM namesRead).imp fun _ _ => text_eq_ok.mp
          | _ => cases requiresRead

/-! ### Views of entries -/

def isMissing (host : Host) (path : FilePath) : Bool :=
  (host.has path).toOption = some false

/-- Does an entry settle what its path is?  It does if it declares a module or if there is
nothing at the path. -/
def Listed.settles (host : Host) (listed : Listed) : Bool :=
  listed.descriptor.isSome || isMissing host listed.path

def addListed (host : Host) (view : DependencyView) (listed : Listed) : DependencyView :=
  view.add listed.dependency listed.path listed.descriptor (!isMissing host listed.path)

theorem addListed_of_isSome {listed : Listed} (declared : listed.descriptor.isSome = true)
    (view : DependencyView) :
    addListed host view listed =
      view.add listed.dependency listed.path listed.descriptor true := by
  unfold addListed DependencyView.add
  rw [declared, Bool.true_or, Bool.true_or]

/-- An item that is taken in gives a dependency, and that is what is added. -/
theorem listed_of_addItem {view later : DependencyView} {number : Nat} {item : Value}
    (read : (listing.addItem host base view number item).result = .ok later) :
    ∃ listed, listing.Lists base item listed ∧ later = addListed host view listed := by
  unfold addItem at read
  simp only [Report.result_bind, Report.result_ofExcept] at read
  obtain ⟨⟨entries, path⟩, found, read⟩ := exceptBind_eq_ok.mp read
  obtain ⟨text, pathRead, read⟩ := exceptBind_eq_ok.mp read
  obtain ⟨scope, scopeRead, read⟩ := exceptBind_eq_ok.mp read
  obtain ⟨coordinates, coordinatesRead, read⟩ := exceptBind_eq_ok.mp read
  obtain ⟨descriptor, descriptorRead, read⟩ := exceptBind_eq_ok.mp read
  obtain ⟨resolved, given⟩ := entries_of_pathOf found
  let listed : Listed := ⟨⟨coordinates, scope⟩, base.join text, descriptor⟩
  have gives : listing.Gives base entries listed := {
    path := ⟨path, text, given, text_eq_ok.mp pathRead, rfl⟩
    scope := scope_of_scopeOf scopeRead
    coordinates := coordinates_of_coordinatesOf coordinatesRead
    descriptor := declares_of_descriptorOf? descriptorRead }
  refine ⟨listed, ⟨entries, resolved, gives⟩, ?_⟩
  split at read
  · rename_i declared
    cases read
    have added : addListed host view listed = _ := addListed_of_isSome declared view
    exact added.symm
  · rename_i undeclared
    rw [Report.result_bind, Report.result_ofExcept] at read
    obtain ⟨there, has, read⟩ := exceptBind_eq_ok.mp read
    have missing : isMissing host (base.join text) = !there := by
      unfold isMissing
      rw [has]
      cases there <;> rfl
    have absent : descriptor = none := by simpa using undeclared
    have added : addListed host view listed =
        view.add ⟨coordinates, scope⟩ (base.join text) none there := by
      unfold addListed
      rw [missing, Bool.not_not, ← absent]
    rw [added]
    cases there with
    | true =>
        cases read
        rfl
    | false =>
        cases read
        rfl

/-- A view that is read of items is made of what they give, one after another. -/
theorem listed_of_addItems {view later : DependencyView} {number : Nat} {items : List Value}
    (read : (listing.addItems host base view number items).result = .ok later) :
    ∃ listed, List.Forall₂ (listing.Lists base) items listed ∧
      later = listed.foldl (addListed host) view := by
  induction items generalizing view number with
  | nil =>
      cases read
      exact ⟨[], .nil, rfl⟩
  | cons item rest ih =>
      rw [addItems, Report.result_bind] at read
      obtain ⟨next, first, read⟩ := exceptBind_eq_ok.mp read
      obtain ⟨here, lists, rfl⟩ := listed_of_addItem first
      obtain ⟨others, later, rfl⟩ := ih read
      exact ⟨here :: others, .cons lists later, rfl⟩

section Made

variable (host : Host) (listed : List Listed) (view : DependencyView)

theorem dependencies_foldl : (listed.foldl (addListed host) view).dependencies =
    (listed.map fun entry => (entry.dependency, entry.path)).foldl
      (fun table pair => table.insert pair.1 pair.2) view.dependencies := by
  induction listed generalizing view with
  | nil => rfl
  | cons entry rest ih => exact ih (addListed host view entry)

theorem descriptors_foldl : (listed.foldl (addListed host) view).descriptors =
    ((listed.filter (·.settles host)).map fun entry => (entry.path, entry.descriptor)).foldl
      (fun table pair => table.insert pair.1 pair.2) view.descriptors := by
  induction listed generalizing view with
  | nil => rfl
  | cons entry rest ih =>
      rw [List.foldl_cons, ih, List.filter_cons]
      have step : (addListed host view entry).descriptors =
          if entry.settles host then view.descriptors.insert entry.path entry.descriptor
          else view.descriptors := by
        unfold addListed DependencyView.add Listed.settles
        rw [Bool.not_not]
      rw [step]
      cases entry.settles host <;> rfl

end Made

/-- What the last entry to settle a path says of it. -/
def standing (host : Host) (listed : List Listed) (path : FilePath) : Option ModuleDescriptor :=
  (listed.filter fun entry => entry.path = path && entry.settles host).getLast?.bind (·.descriptor)

/-- Where an entry declares a module, what the last entry for its path says is known. -/
theorem lookUp_of_declared {listed : List Listed} {entry : Listed} (present : entry ∈ listed)
    (declared : entry.descriptor.isSome = true) (inspection : Inspection) :
    let view := listed.foldl (addListed host) {}
    (view.lookUp inspection entry.path).result =
      .ok (standing host listed entry.path, view) := by
  intro view
  let own := listed.filter fun other => other.path = entry.path && other.settles host
  have known : view.descriptors.get? entry.path = own.getLast?.map (·.descriptor) := by
    have made : view.descriptors = .ofList ((listed.filter (·.settles host)).map fun entry =>
        (entry.path, entry.descriptor)) := descriptors_foldl host listed {}
    rw [made, KeyedList.get?_ofList, List.filter_map, List.filter_filter, List.getLast?_map,
      Option.map_map]
    rfl
  have some : own ≠ [] := by
    refine List.ne_nil_of_mem (List.mem_filter.mpr ⟨present, ?_⟩)
    unfold Listed.settles
    simp [declared]
  have last := List.getLast?_eq_some_getLast some
  have said : standing host listed entry.path = (own.getLast some).descriptor := by
    unfold standing
    rw [last]
    rfl
  rw [last, Option.map_some] at known
  unfold DependencyView.lookUp
  rw [known, said]
  rfl

/-! ### Faithfulness -/

/-- A view is faithful to its listing under two conditions.  Its dependencies are those of the
entries, in their order and with their paths, exactly if no two entries have the same coordinates
and the same scope; otherwise the last of them takes the place of the first.  The module that is
found for an entry that declares one is what the last entry for its path says: the module that
this entry declares, or none if it declares none and there is nothing at the path. -/
theorem view_exact {document : Graph} {source : String} {view : DependencyView}
    (accepted : (DependencyListing.view host base source document).result = .ok view) :
    ∃ items listed,
      (⟨document, source⟩ : DependencyListing).items = .ok items ∧
      List.Forall₂ ((⟨document, source⟩ : DependencyListing).Lists base) items listed ∧
      view.dependencies = .ofList (listed.map fun entry => (entry.dependency, entry.path)) ∧
      (view.dependencies.entries = listed.map (fun entry => (entry.dependency, entry.path)) ↔
        (listed.map (·.dependency)).Nodup) ∧
      ∀ entry ∈ listed, entry.descriptor.isSome = true → ∀ inspection,
        (view.lookUp inspection entry.path).result =
          .ok (standing host listed entry.path, view) := by
  unfold DependencyListing.view at accepted
  simp only [Report.result_bind, Report.result_ofExcept, Report.result_debug] at accepted
  obtain ⟨items, listedItems, accepted⟩ := exceptBind_eq_ok.mp accepted
  obtain ⟨made, read, accepted⟩ := exceptBind_eq_ok.mp accepted
  cases accepted
  obtain ⟨listed, lists, rfl⟩ := listed_of_addItems read
  have dependencies := dependencies_foldl host listed {}
  refine ⟨items, listed, listedItems, lists, dependencies, ?_, ?_⟩
  · have kept := KeyedList.entries_ofList_iff
      (listed.map fun entry => (entry.dependency, entry.path))
    rw [List.map_map] at kept
    rw [dependencies]
    exact kept
  · intro entry present declared inspection
    exact lookUp_of_declared present declared inspection

private def entryOf (fields : List (String × String)) : Value :=
  .mapping (fields.map fun (key, value) => (.text key, .text value))

private def listingOf (items : List Value) : Graph :=
  .ofValue (.mapping [(.text "dependencies", .list items)])

/-- Two artifacts that have the same name in different directories. -/
def sameNames : Graph :=
  listingOf [entryOf [("path", "a/x.jar"), ("scope", "test"), ("module", "a")],
    entryOf [("path", "b/x.jar"), ("scope", "test"), ("module", "b")]]

def declaringEntry : Value :=
  entryOf [("path", "a.jar"), ("scope", "test"), ("module", "a")]

/-- One artifact under two scopes, declared to be a module under the first. -/
def samePaths : Graph :=
  listingOf [declaringEntry, entryOf [("path", "a.jar"), ("scope", "runtime")]]

def viewOf (document : Graph) : Report DependencyView :=
  DependencyListing.view {} (.ofText "deps") "<data>" document

private theorem dependencies_sameNames :
    (viewOf sameNames).result.toOption.map (·.dependencies.entries) =
      some [(⟨"x.jar", .test⟩, .ofText "deps/b/x.jar")] := by
  decide +kernel

private theorem descriptors_samePaths :
    (viewOf samePaths).result.toOption.map (·.descriptors.get? (.ofText "deps/a.jar")) =
      some (some none) := by
  decide +kernel

/-- Of two entries a view keeps one, so both give the same dependency. -/
theorem view_exact_same_names :
    ∃ view items listed, (viewOf sameNames).result = .ok view ∧
      (⟨sameNames, "<data>"⟩ : DependencyListing).items = .ok items ∧
      List.Forall₂ ((⟨sameNames, "<data>"⟩ : DependencyListing).Lists (.ofText "deps")) items
        listed ∧
      listed.length = 2 ∧ ¬ (listed.map (·.dependency)).Nodup := by
  obtain ⟨view, accepted, entries⟩ := exists_ok_of_toOption dependencies_sameNames
  obtain ⟨items, listed, given, lists, _, kept, _⟩ := view_exact accepted
  have two : listed.length = 2 := by
    rw [← lists.length_eq]
    cases given
    rfl
  refine ⟨view, items, listed, accepted, given, lists, two, ?_⟩
  intro distinct
  have lengths := congrArg List.length (entries.symm.trans (kept.mpr distinct))
  rw [List.length_map, two] at lengths
  cases lengths

/-- The first artifact of two with the same name is lost, and the module that an entry declares
is forgotten for a later one that declares none. -/
theorem view_loses_entries :
    (∃ view items, (viewOf sameNames).result = .ok view ∧
      (⟨sameNames, "<data>"⟩ : DependencyListing).items = .ok items ∧ items.length = 2 ∧
      view.dependencies.entries = [(⟨"x.jar", .test⟩, .ofText "deps/b/x.jar")]) ∧
    ∃ view items listed, (viewOf samePaths).result = .ok view ∧
      (⟨samePaths, "<data>"⟩ : DependencyListing).items = .ok items ∧ declaringEntry ∈ items ∧
      (⟨samePaths, "<data>"⟩ : DependencyListing).Lists (.ofText "deps") declaringEntry listed ∧
      listed.descriptor = some { name := "a" } ∧
      ∀ inspection, (view.lookUp inspection listed.path).result = .ok (none, view) := by
  obtain ⟨view, accepted, entries⟩ := exists_ok_of_toOption dependencies_sameNames
  obtain ⟨other, otherAccepted, known⟩ := exists_ok_of_toOption descriptors_samePaths
  refine ⟨⟨view, _, accepted, rfl, rfl, entries⟩, other, _,
    ⟨⟨"a.jar", .test⟩, .ofText "deps/a.jar", some { name := "a" }⟩, otherAccepted, rfl,
    List.mem_cons_self, ⟨_, rfl, ?_⟩, rfl, ?_⟩
  · exact {
      path := ⟨.text "a.jar", "a.jar", rfl, rfl, by decide +kernel⟩
      scope := rfl
      coordinates := rfl
      descriptor := ⟨{ name := "a" }, rfl, rfl, rfl, rfl⟩ }
  · intro inspection
    unfold DependencyView.lookUp
    rw [known]
    rfl

end ModulePlan.DependencyListing
