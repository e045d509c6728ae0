/-
Documents whose lists, sets and mappings may stand in several places, and even within
themselves.

A graph is a value with the parts that values in it refer to.  Where a part is written within
itself, only its brackets are written, with dots between them.
-/

import ModulePlan.Document.Value

namespace ModulePlan.Document

structure Graph where
  root : Value
  parts : Array Value := #[]
deriving Inhabited

namespace Graph

def ofValue (value : Value) : Graph :=
  { root := value }

def resolve (graph : Graph) : Value → Value
  | .part number => graph.parts.getD number .null
  | value => value

def ellipsis : Value → String
  | .list _ => "[...]"
  | _ => "\x7b...\x7d"

def describePart (graph : Graph) : Nat → List Nat → Nat → Writing
  | 0, _, _ => .error .tooDeep
  | room + 1, around, number =>
    let value := graph.parts.getD number .null
    if around.contains number then .ok (ellipsis value)
    else value.describeWith (graph.describePart room (number :: around)) (room + 1)

def shown (graph : Graph) (number : Nat) : Writing :=
  graph.describePart Value.writingDepth [] number

def toText (graph : Graph) (value : Value) : Writing :=
  value.toTextWith graph.shown

/-- Null, false, zero and whatever is empty count as missing. -/
def isPresent (graph : Graph) (value : Value) : Bool :=
  (graph.resolve value).isPresent

end Graph

end ModulePlan.Document
