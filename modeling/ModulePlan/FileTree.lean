/-
File trees as values.

A tree lists its files and its explicitly known directories by place, a place being the list
of names from the root.  Whatever lies above a listed place is a directory too.  A path is
followed name by name, so that a path through a missing directory leads nowhere even where it
turns back.  Names and paths have a greatest length in bytes.
-/

import ModulePlan.FilePath
import ModulePlan.KeyedList

namespace ModulePlan

inductive Content where
  | bytes (data : List UInt8)
  | archive (entries : List (String × List UInt8))
deriving DecidableEq

inductive Node where
  | file (content : Content)
  | directory
deriving DecidableEq

structure FileTree where
  nodes : KeyedList (List String) Node := .empty
deriving Inhabited

inductive LostPath where
  | missing
  | notDirectory
  | tooLong
deriving DecidableEq

def longestName : Nat := 255

def longestPath : Nat := 4095

namespace FileTree

/-- Does the first place lie properly above the second? -/
def isAbove (upper lower : List String) : Bool :=
  upper.isPrefixOf lower && upper.length < lower.length

def at? (tree : FileTree) (place : List String) : Option Node :=
  match tree.nodes.get? place with
  | some node => some node
  | none =>
    if place = [] || tree.nodes.keys.any (isAbove place) then some .directory else none

def walk (tree : FileTree) (here : List String) :
    List String → Except LostPath (List String × Node)
  | [] => .ok (here, .directory)
  | name :: rest =>
    if name = ".." then tree.walk here.dropLast rest
    else if longestName < name.utf8ByteSize then .error .tooLong
    else
      match tree.at? (here ++ [name]) with
      | none => .error .missing
      | some .directory => tree.walk (here ++ [name]) rest
      | some (.file content) =>
        if rest = [] then .ok (here ++ [name], .file content) else .error .notDirectory

def find (tree : FileTree) (directory : List String) (path : FilePath) :
    Except LostPath (List String × Node) :=
  if longestPath < path.toText.utf8ByteSize then .error .tooLong
  else tree.walk (if path.root = .relative then directory else []) path.names

def put (tree : FileTree) (place : List String) (node : Node) : FileTree :=
  ⟨tree.nodes.insert place node⟩

def remove (tree : FileTree) (place : List String) : FileTree :=
  let kept := tree.nodes.entries.filter fun entry => !place.isPrefixOf entry.1
  let above := (List.range place.length).map fun depth => (place.take depth, Node.directory)
  ⟨.ofList (above ++ kept)⟩

/-- The files below a place with the names that lead to them, in the order of their names. -/
def filesBelow (tree : FileTree) (place : List String) : List (List String) :=
  let below := tree.nodes.entries.filterMap fun (location, node) =>
    match node with
    | .file _ => if isAbove place location then some (location.drop place.length) else none
    | .directory => none
  below.mergeSort FilePath.namesLe

end FileTree

end ModulePlan
