/-
Listings of dependencies.

A listing is a mapping whose entry `dependencies` is a list.  Each dependency has a path, and
may have a scope, coordinates and a module with the modules that it requires.  Paths are seen
from the directory of the listing.  The artifact of a dependency without a module is looked
at when it is asked for, unless it does not exist, and then it is no module.
-/

import ModulePlan.DependencyView
import ModulePlan.Document.Graph
import ModulePlan.Document.Yaml.Reader
import ModulePlan.Host
import ModulePlan.ScopeValue

namespace ModulePlan

open Document (Value Graph)

structure DependencyListing where
  document : Graph
  source : String

namespace DependencyListing

abbrev Entries := List (Value × Value)

/-- The value under a key, if it is there and neither null, zero nor empty. -/
def presentField? (listing : DependencyListing) (entries : Entries) (key : String) : Option Value :=
  (Value.field? entries key).filter listing.document.isPresent

def text (listing : DependencyListing) (value : Value) : Except Fault String :=
  Fault.written (listing.document.toText value)

/-- The scope of a dependency; a text that names none is a fault of the listing. -/
def scopeOf (listing : DependencyListing) (entries : Entries) : Except Fault Scope :=
  match Scope.ofValue ((Value.field? entries "scope").getD .null) with
  | .ok scope => .ok scope
  | .error (.value (.unknownScope text)) => .error (.setting (.unknownScope listing.source text))
  | .error fault => .error fault

/-- The coordinates of a dependency, which are the name of its artifact unless it has others. -/
def coordinatesOf (listing : DependencyListing) (entries : Entries) (artifact : FilePath) :
    Except Fault String :=
  match listing.presentField? entries "coordinates" with
  | some value => listing.text value
  | none => .ok artifact.name

def requiresOf (listing : DependencyListing) (coordinates : String) (entries : Entries) :
    Except Fault (List Value) :=
  match (listing.presentField? entries "requires").map listing.document.resolve with
  | none => .ok []
  | some (.list names) => .ok names
  | some _ => .error (.setting (.requiresNotList listing.source coordinates))

def descriptorOf? (listing : DependencyListing) (coordinates : String) (entries : Entries) :
    Except Fault (Option ModuleDescriptor) :=
  match listing.presentField? entries "module" with
  | none => .ok none
  | some module => do
    let required ← listing.requiresOf coordinates entries
    let name ← listing.text module
    let requires ← required.mapM listing.text
    let automatic := (listing.presentField? entries "automatic").isSome
    return some { name, requires, automatic }

/-- The entries of a dependency and its path; the number counts from one. -/
def pathOf (listing : DependencyListing) (number : Nat) (item : Value) :
    Except Fault (Entries × Value) :=
  match listing.document.resolve item with
  | .mapping entries =>
    match Value.field? entries "path" with
    | some path => .ok (entries, path)
    | none => .error (.setting (.dependencyWithoutPath listing.source number))
  | _ => .error (.setting (.dependencyWithoutPath listing.source number))

def addItem (listing : DependencyListing) (host : Host) (base : FilePath) (view : DependencyView)
    (number : Nat) (item : Value) : Report DependencyView := do
  let (entries, path) ← Report.ofExcept (listing.pathOf number item)
  let artifact := base.join (← Report.ofExcept (listing.text path))
  let scope ← Report.ofExcept (listing.scopeOf entries)
  let coordinates ← Report.ofExcept (listing.coordinatesOf entries artifact)
  let descriptor ← Report.ofExcept (listing.descriptorOf? coordinates entries)
  let dependency : Dependency := ⟨coordinates, scope⟩
  if descriptor.isSome then return view.add dependency artifact descriptor true
  else if ← Report.ofExcept (host.has artifact) then
    return view.add dependency artifact none true
  else
    Report.debug (artifact.toText ++ " not found, treated as unnamed")
    return view.add dependency artifact none false

def addItems (listing : DependencyListing) (host : Host) (base : FilePath) (view : DependencyView)
    (number : Nat) : List Value → Report DependencyView
  | [] => return view
  | item :: rest => do
    let view ← listing.addItem host base view number item
    listing.addItems host base view (number + 1) rest

/-- The dependencies that a listing holds.  A document without anything lists none. -/
def items (listing : DependencyListing) : Except Fault (List Value) :=
  match listing.document.resolve listing.document.root with
  | .null => .ok []
  | .mapping entries =>
    match (Value.field? entries "dependencies").map listing.document.resolve with
    | none => .ok []
    | some (.list items) => .ok items
    | some _ => .error (.setting (.dependenciesNotList listing.source))
  | _ => .error (.setting (.notMapping listing.source))

/-- The view of a listing, whose paths are seen from a base.  `source` is the text by which
the listing is known. -/
def view (host : Host) (base : FilePath) (source : String) (document : Graph) :
    Report DependencyView := do
  let listing : DependencyListing := ⟨document, source⟩
  let listed ← Report.ofExcept listing.items
  let view ← listing.addItems host base {} 1 listed
  Report.debug ("Loaded " ++ toString view.size ++ " dependencies from " ++ source)
  return view

def load (host : Host) (path : FilePath) : Report DependencyView := do
  let data ← Report.ofExcept (host.readBytes path)
  let document ← Report.ofExcept ((Document.Yaml.read data).mapError (·.inFile path))
  view host path.parent path.toText document

end DependencyListing

end ModulePlan
