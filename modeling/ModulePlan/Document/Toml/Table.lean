/-
Tables of TOML documents while they are filled.

A document fills one tree of tables.  A place in it is a list of keys; where a list of tables
stands, its last table is meant.  Some places are closed: a value that is a list or a table
closes all below it, and a table that was named once is not named again.
-/

import ModulePlan.Document.Value

namespace ModulePlan.Document.Toml

abbrev Entries := List (Value × Value)

abbrev Key := List String

/-- Changes the table at a place, making the tables on the way.  There is none where another
value stands in the way. -/
def alterTable (intoLists : Bool) (change : Entries → Option Entries) :
    Key → Entries → Option Entries
  | [], entries => change entries
  | name :: rest, entries =>
    match Value.field? entries name with
    | none => do
      let inner ← alterTable intoLists change rest []
      return Value.putEntry (.text name) (.mapping inner) entries
    | some (.mapping inner) => do
      let inner ← alterTable intoLists change rest inner
      return Value.putEntry (.text name) (.mapping inner) entries
    | some (.list items) =>
      if intoLists then
        match items.getLast? with
        | some (.mapping inner) => do
          let inner ← alterTable intoLists change rest inner
          return Value.putEntry (.text name) (.list (items.dropLast ++ [.mapping inner])) entries
        | _ => none
      else none
    | some _ => none

def putNew (name : String) (value : Value) (entries : Entries) : Option Entries :=
  if (Value.field? entries name).isSome then none
  else some (Value.putEntry (.text name) value entries)

/-- Adds an empty table to a list of tables, which is made if there is none. -/
def appendTable (name : String) (entries : Entries) : Option Entries :=
  match Value.field? entries name with
  | none => some (Value.putEntry (.text name) (.list [.mapping []]) entries)
  | some (.list items) =>
    some (Value.putEntry (.text name) (.list (items ++ [.mapping []])) entries)
  | some _ => none

/-- Why a place is closed: it holds a finished value, with all below it, or it was named as a
table. -/
inductive Closure where
  | finished
  | named
deriving DecidableEq

abbrev Closures := List (Key × Closure)

namespace Closures

def isFinished (closures : Closures) (key : Key) : Bool :=
  closures.any fun (place, closure) => closure = .finished && place.isPrefixOf key

def isNamed (closures : Closures) (key : Key) : Bool :=
  closures.any fun (place, closure) => closure = .named && place = key

def reopen (closures : Closures) (key : Key) : Closures :=
  closures.filter fun (place, _) => !key.isPrefixOf place

end Closures

/-- A document while it is filled: the tree, the closed places, those that close with the next
header, and the place that the latest header names. -/
structure Draft where
  entries : Entries := []
  closures : Closures := []
  pending : Closures := []
  header : Key := []

namespace Draft

def closePending (draft : Draft) : Draft :=
  { draft with closures := draft.closures ++ draft.pending, pending := [] }

/-- Goes to a table, which must not have been named before. -/
def openTable (draft : Draft) (key : Key) : Option Draft :=
  let draft := draft.closePending
  if draft.closures.isNamed key || draft.closures.isFinished key then none
  else do
    let entries ← alterTable true some key draft.entries
    return { draft with
      entries := entries
      closures := draft.closures ++ [(key, .named)]
      header := key }

def openListItem (draft : Draft) (key : Key) : Option Draft :=
  let draft := draft.closePending
  if draft.closures.isFinished key then none
  else do
    let entries ← alterTable true (appendTable (key.getLastD "")) key.dropLast draft.entries
    return { draft with
      entries := entries
      closures := draft.closures.reopen key ++ [(key, .named)]
      header := key }

def isCollection : Value → Bool
  | .list _ | .mapping _ => true
  | _ => false

def placesAbove (header key : Key) : List Key :=
  ((List.range key.length).drop 1).map fun depth => header ++ key.take depth

def putValue (draft : Draft) (key : Key) (value : Value) : Option Draft :=
  let above := placesAbove draft.header key
  let parent := draft.header ++ key.dropLast
  if above.any draft.closures.isNamed || draft.closures.isFinished parent then none
  else do
    let entries ← alterTable true (putNew (key.getLastD "") value) parent draft.entries
    return { draft with
      entries := entries
      closures := draft.closures ++
        (if isCollection value then [(draft.header ++ key, .finished)] else [])
      pending := draft.pending ++ above.map fun place => (place, .named) }

end Draft

def putInline (entries : Entries) (closures : Closures) (key : Key) (value : Value) :
    Option (Entries × Closures) :=
  if closures.isFinished key then none
  else do
    let entries ← alterTable false (putNew (key.getLastD "") value) key.dropLast entries
    return (entries,
      closures ++ if Draft.isCollection value then [(key, .finished)] else [])

end ModulePlan.Document.Toml
