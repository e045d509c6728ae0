/-
File paths, without looking at any file.

A path is a root and the names below it.  Repeated slashes, a slash at the end and single
dots mean nothing; two dots are kept as a name.  A path that begins with exactly two slashes
is told apart from one that begins with one slash or with more than two.
-/

import ModulePlan.Text.CodeRange
import ModulePlan.Text.Fields

namespace ModulePlan

/-- Where a path begins: at the working directory, at one slash or at two. -/
inductive PathRoot where
  | relative
  | absolute
  | doubleSlash
deriving DecidableEq

structure FilePath where
  root : PathRoot := .relative
  names : List String := []
deriving DecidableEq, Inhabited

namespace FilePath

def PathRoot.text : PathRoot → String
  | .relative => ""
  | .absolute => "/"
  | .doubleSlash => "//"

/-- Names count unless they are empty or a single dot. -/
def isProperName (name : List Char) : Bool :=
  name ≠ [] && name ≠ ['.']

def namesOf (cs : List Char) : List String :=
  ((Text.fields '/' cs).filter isProperName).map String.ofList

def rootOf (cs : List Char) : PathRoot :=
  match (cs.takeWhile (· = '/')).length with
  | 0 => .relative
  | 2 => .doubleSlash
  | _ => .absolute

def ofText (text : String) : FilePath :=
  ⟨rootOf text.toList, namesOf text.toList⟩

def toText (path : FilePath) : String :=
  match path with
  | ⟨.relative, []⟩ => "."
  | _ => PathRoot.text path.root ++ Text.joinFields "/" path.names

/-- The second path as seen from the first: below it, unless it has a root of its own. -/
def append (base path : FilePath) : FilePath :=
  match path.root with
  | .relative => ⟨base.root, base.names ++ path.names⟩
  | _ => path

def join (base : FilePath) (text : String) : FilePath :=
  base.append (ofText text)

def name (path : FilePath) : String :=
  path.names.getLastD ""

def parent (path : FilePath) : FilePath :=
  ⟨path.root, path.names.dropLast⟩

/-- The part of a name from its last dot on; empty when the name has no dot, ends in its last
dot, or begins with it. -/
def suffixOf (name : List Char) : List Char :=
  let extension := name.reverse.takeWhile (· ≠ '.')
  if extension = [] || name.length ≤ extension.length + 1 then []
  else '.' :: extension.reverse

def suffix (path : FilePath) : String :=
  String.ofList (suffixOf path.name.toList)

def follow (place : List String) (names : List String) : List String :=
  names.foldl (fun here name => if name = ".." then here.dropLast else here ++ [name]) place

/-- The names of the place that a path means as seen from a working directory, without dots. -/
def placeFrom (directory : List String) (path : FilePath) : List String :=
  match path.root with
  | .relative => follow directory path.names
  | _ => follow [] path.names

def resolve (directory : List String) (path : FilePath) : FilePath :=
  ⟨.absolute, path.placeFrom directory⟩

def namesLe : List String → List String → Bool
  | [], _ => true
  | _ :: _, [] => false
  | left :: lefts, right :: rights =>
    if left = right then namesLe lefts rights else decide (left < right)

def isPlainInAddress (c : Char) : Bool :=
  Text.isAsciiLetter c || Text.isAsciiDigit c || ['_', '.', '-', '~', '/'].contains c

def percentByte (byte : UInt8) : List Char :=
  ['%', (Nat.digitChar (byte.toNat / 16)).toUpper, (Nat.digitChar (byte.toNat % 16)).toUpper]

/-- The address of a file, with the bytes of all but plain characters written as numbers. -/
def address (path : FilePath) : String :=
  "file://" ++ String.ofList (path.toText.toList.flatMap fun c =>
    if isPlainInAddress c then [c] else (String.utf8EncodeChar c).flatMap percentByte)

end FilePath

end ModulePlan
