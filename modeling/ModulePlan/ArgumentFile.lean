/-
Argument files of the compiler: one argument on each line, in double quotes where it
holds white space or a quote, or where it is empty.
-/

import ModulePlan.CompilerOptions

namespace ModulePlan.ArgumentFile

def needsQuotes (c : Char) : Bool :=
  Text.isBlank c || c == '\'' || c == '"'

/-- A character inside quotes: backslash, quotes and the controls that end a line or an
argument are written after a backslash. -/
def escape (c : Char) : List Char :=
  if c == '\\' then ['\\', '\\']
  else if c == '\'' then ['\\', '\'']
  else if c == '"' then ['\\', '"']
  else if c == '\n' then ['\\', 'n']
  else if c == '\r' then ['\\', 'r']
  else if c == '\t' then ['\\', 't']
  else if c == '\x0c' then ['\\', 'f']
  else [c]

def quoteChars (cs : List Char) : List Char :=
  if cs.isEmpty then ['"', '"']
  else if cs.any needsQuotes then '"' :: cs.flatMap escape ++ ['"']
  else cs

def quote (argument : String) : String :=
  String.ofList (quoteChars argument.toList)

def writeChars (arguments : List String) : List Char :=
  arguments.flatMap fun argument => quoteChars argument.toList ++ ['\n']

def write (options : CompilerOptions) : String :=
  String.ofList (writeChars options.arguments)

end ModulePlan.ArgumentFile
