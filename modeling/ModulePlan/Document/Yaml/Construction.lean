/-
The values of nodes.

The tag of a node says what it is read as.  A scalar is read at once; a sequence or mapping
becomes a part of the document, which is filled later: parts are filled in the order in which
they are come to, and the nodes in a part are read when it is filled.  A node that stands in
several places has one value.  The entries of mappings that a mapping mixes in stand before
its own, which have precedence.
-/

import ModulePlan.Document.Base64
import ModulePlan.Document.Graph
import ModulePlan.Document.NumberSet
import ModulePlan.Document.Yaml.Node
import ModulePlan.Document.Yaml.Number

namespace ModulePlan.Document.Yaml

/-- The nodes of a document, their values as far as they are read, the parts, and the number
of each part's node. -/
structure Construction where
  nodes : Array Node
  values : Array (Option Value)
  parts : Array Value := #[]
  origins : Array Nat := #[]
  mixingSteps : Nat

namespace Construction

def references (nodes : Array Node) : Nat :=
  nodes.foldl (fun count node =>
    match node with
    | .scalar .. => count
    | .sequence _ items => count + items.size
    | .mapping _ entries => count + entries.size) 0

/-- What is known before any node is read.  Each mapping that is mixed in takes an entry out of
another one, and no list of mappings is longer than all references. -/
def ofNodes (nodes : Array Node) : Construction where
  nodes := nodes
  values := .replicate nodes.size none
  mixingSteps := (references nodes + 1) * (references nodes + 4)

abbrev Building := StateT Construction (Except Refusal)

def refuse {α : Type} : Building α :=
  throw .malformed

def node (number : Nat) : Building Node := do
  return (← get).nodes.getD number .missing

/-- The entries of a mapping; a node of another kind has none. -/
def entriesOf : Node → Array (Nat × Nat)
  | .mapping _ entries => entries
  | _ => #[]

def setEntries (number : Nat) (entries : Array (Nat × Nat)) : Building Unit :=
  modify fun state =>
    { state with nodes := state.nodes.modify number fun node => .mapping node.tag entries }

/-! ### Scalars -/

def truth (text : List Char) : Except Refusal Value :=
  match truthWords.lookup (String.ofList (text.map Text.lowerAscii)) with
  | some value => .ok (.bool value)
  | none => .error (.fault (.kind .notTruthValue))

def binary (text : List Char) : Except Refusal Value :=
  match if text.all Text.isAscii then base64? text else none with
  | some data => .ok (.bytes data)
  | none => .error .malformed

def chainLimit : Nat := 980

def scalarText : Nat → Nat → Building (List Char)
  | 0, _ => throw (.fault (.kind .tooDeep))
  | fuel + 1, number => do
    match ← node number with
    | .scalar _ text => return text
    | .sequence .. => refuse
    | .mapping _ entries =>
      let nodes := (← get).nodes
      match entries.find? fun entry => (nodes.getD entry.1 .missing).tag = .value with
      | some (_, standing) => scalarText fuel standing
      | none => refuse

def isMapping (number : Nat) : Building Bool := do
  return (← node number) matches .mapping ..

def scalarValue (tag : Tag) (number : Nat) : Building Value := do
  match tag with
  | .null | .bool | .int | .float | .text | .timestamp | .binary =>
    let text ← scalarText chainLimit number
    match tag with
    | .null => return .null
    | .bool => truth text
    | .int => Value.int <$> whole text
    | .float => Value.float <$> float text
    | .timestamp =>
      if ← isMapping number then throw (.fault (.kind .dateOfMapping)) else timestamp text
    | .binary => binary text
    | _ => return .text (String.ofList text)
  | _ => refuse

/-! ### Nodes -/

def keep (number : Nat) (value : Value) : Building Value := do
  modify fun state => { state with values := state.values.set! number (some value) }
  return value

def begin (number : Nat) : Building Value := do
  let part := (← get).parts.size
  modify fun state =>
    { state with parts := state.parts.push .null, origins := state.origins.push number }
  return .part part

def value (number : Nat) : Building Value := do
  match (← get).values.getD number none with
  | some value => return value
  | none =>
    let tag := (← node number).tag
    match tag with
    | .sequence | .mapping | .set | .orderedPairs | .pairs => keep number (← begin number)
    | _ => keep number (← scalarValue tag number)

/-! ### Mixing mappings -/

/-- The number of the next entry, from one on, whose key mixes mappings in.  The keys before it
that stand for a mapping become texts. -/
def nextMixing (entries : Array (Nat × Nat)) : Nat → Nat → Building (Option Nat)
  | 0, _ => return none
  | fuel + 1, index =>
    match entries[index]? with
    | none => return none
    | some (key, _) => do
      match ← node key with
      | .scalar .merge _ | .sequence .merge _ | .mapping .merge _ => return some index
      | .scalar .value text => retag key (.scalar .text text)
      | .sequence .value items => retag key (.sequence .text items)
      | .mapping .value inner => retag key (.mapping .text inner)
      | _ => pure ()
      nextMixing entries fuel (index + 1)
where
  retag (key : Nat) (node : Node) : Building Unit :=
    modify fun state => { state with nodes := state.nodes.set! key node }

mutual

/-- Mixes into a mapping what it says, from an entry on.  `mixed` is already to be mixed in. -/
def mixFrom (room number index : Nat) (mixed : Array (Nat × Nat)) : Nat → Building Unit
  | 0 => throw (.fault (.kind .tooDeep))
  | fuel + 1 => do
    let entries := entriesOf (← node number)
    match ← nextMixing entries entries.size index with
    | none => if !mixed.isEmpty then setEntries number (mixed ++ entries)
    | some place =>
      let source := (entries.getD place (0, 0)).2
      setEntries number (entries.eraseIdxIfInBounds place)
      match ← node source with
      | .scalar .. => refuse
      | .mapping .. =>
        mix room source fuel
        mixFrom room number place (mixed ++ entriesOf (← node source)) fuel
      | .sequence _ items =>
        let lists ← mixAll room items.toList fuel
        mixFrom room number place (lists.foldl (· ++ ·) mixed) fuel
termination_by structural fuel => fuel

def mix (room number : Nat) : Nat → Building Unit
  | 0 => throw (.fault (.kind .tooDeep))
  | fuel + 1 =>
    match room with
    | 0 => throw (.fault (.kind .tooDeep))
    | room + 1 => mixFrom room number 0 #[] fuel
termination_by structural fuel => fuel

/-- The entries of mappings, the last of which come first, when each has mixed in what it
says. -/
def mixAll (room : Nat) (numbers : List Nat) : Nat → Building (List (Array (Nat × Nat)))
  | 0 => throw (.fault (.kind .tooDeep))
  | fuel + 1 =>
    match numbers with
    | [] => return []
    | number :: rest => do
      if ← isMapping number then
        mix room number fuel
        let entries := entriesOf (← node number)
        return (← mixAll room rest fuel) ++ [entries]
      else refuse
termination_by structural fuel => fuel

end

def mixedEntries (number : Nat) : Building (List (Nat × Nat)) := do
  if ← isMapping number then
    mix chainLimit number (← get).mixingSteps
    return (entriesOf (← node number)).toList
  else refuse

/-! ### Parts -/

/-- A key of a mapping.  What is no number is one key with another only if both come from one
node, or neither of them has a source because both are the word for it. -/
structure Key where
  value : Value
  source : Option Nat := none

def Key.same (left right : Key) : Bool :=
  match left.value, right.value with
  | .float .notANumber, .float .notANumber => left.source = right.source
  | left, right => left.sameKey right

def put (key : Key) (value : Value) (entries : Array (Key × Value)) : Array (Key × Value) :=
  match entries.findIdx? (·.1.same key) with
  | some index => entries.modify index fun entry => (entry.1, value)
  | none => entries.push (key, value)

/-- The key of a node.  A value that is a part of the document is none. -/
def key (number : Nat) : Building Key := do
  match ← value number with
  | .part _ => refuse
  | .float .notANumber =>
    let isWord := isNoNumber (← scalarText chainLimit number)
    return { value := .float .notANumber, source := if isWord then none else some number }
  | found => return { value := found }

/-- The entries of a mapping, of which later ones replace the values of earlier ones. -/
def entryValues (entries : Array (Key × Value)) :
    List (Nat × Nat) → Building (Array (Key × Value))
  | [] => return entries
  | (name, content) :: rest => do
    let name ← key name
    let content ← value content
    entryValues (put name content entries) rest

def itemValues (done : Array Value) : List Nat → Building (List Value)
  | [] => return done.toList
  | number :: rest => do itemValues (done.push (← value number)) rest

def pairValues (done : Array Value) : List Nat → Building (List Value)
  | [] => return done.toList
  | number :: rest => do
    match (entriesOf (← node number)).toList with
    | [(first, second)] =>
      let first ← value first
      let second ← value second
      pairValues (done.push (.record [first, second])) rest
    | _ => refuse

def contents (number : Nat) : Building Value := do
  match ← node number with
  | .sequence .sequence items => return .list (← itemValues #[] items.toList)
  | .sequence .orderedPairs items | .sequence .pairs items =>
    return .list (← pairValues #[] items.toList)
  | .mapping .mapping _ =>
    let entries ← entryValues #[] (← mixedEntries number)
    return .mapping (entries.toList.map fun entry => (entry.1.value, entry.2))
  | .mapping .set _ =>
    let entries ← entryValues #[] (← mixedEntries number)
    return .group (NumberSet.arrange (entries.toList.map (·.1.value)))
  | _ => refuse

def fill : Nat → Nat → Building Unit
  | 0, _ => return ()
  | fuel + 1, part => do
    match (← get).origins[part]? with
    | none => return ()
    | some number =>
      let value ← contents number
      modify fun state => { state with parts := state.parts.set! part value }
      fill fuel (part + 1)

def graph (nodes : Array Node) (root : Nat) : Except Refusal Graph := do
  let building : Building Value := do
    let found ← value root
    fill nodes.size 0
    return found
  let (found, state) ← building.run (.ofNodes nodes)
  return { root := found, parts := state.parts }

end Construction

end ModulePlan.Document.Yaml
