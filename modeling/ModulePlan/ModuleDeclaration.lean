/-
Module declarations in source files.

The module declared in a source file is the first one that is declared by a child of the root of
its syntax tree.  Its name is the text of that child's name without white space.
-/

import ModulePlan.Host
import ModulePlan.JavaSource

namespace ModulePlan.ModuleDeclaration

def fileName : String := "module-info.java"

/-- The children of the root of a file's syntax tree.  An archive is no source file. -/
def children (host : Host) : Content → List SyntaxNode
  | .bytes data => host.parseSource data
  | .archive _ => []

/-- The text of the name in the first module declaration. -/
def writtenName? (children : List SyntaxNode) : Option (List UInt8) :=
  (children.find? fun node => node.kind = JavaSource.moduleKind).bind (·.name)

def withoutBlanks (text : String) : String :=
  String.ofList (text.toList.filter fun c => !Text.isBlank c)

def isIn (host : Host) (root : FilePath) : Except Fault Bool :=
  host.isFile (root.join fileName)

def read (host : Host) (root : FilePath) : Report (Option String) := do
  let path := root.join fileName
  match ← Report.ofExcept (host.node? path) with
  | some (.file content) =>
    match writtenName? (children host content) with
    | some written =>
      match Text.Utf8.decode? written with
      | some text =>
        let name := withoutBlanks text
        Report.debug (path.toText ++ " declares module " ++ name)
        return some name
      | none => Report.fail .undecodable
    | none =>
      Report.debug ("No module declaration in " ++ path.toText)
      return none
  | _ => return none

end ModulePlan.ModuleDeclaration
