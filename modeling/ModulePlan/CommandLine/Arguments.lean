/-
Arguments of the command line.

Words that begin with a hyphen are options, short ones of one letter or long ones, which may
be cut short as long as one option alone is meant.  Short options may share a hyphen.  The
value of an option follows it, in its own word or in the next.  Two hyphens in its own word
are no value.  The other words are operands, of which there is one; numbers with a minus sign,
and words with a space that name no option, are operands too, and so is each word behind a
word of two hyphens.
-/

import ModulePlan.Location
import ModulePlan.Text.Digit

namespace ModulePlan.CommandLine

inductive Format where
  | arguments
  | document
deriving DecidableEq

def Format.ofWord? (word : String) : Option Format :=
  if word = "args" then some .arguments else if word = "yaml" then some .document else none

structure Arguments where
  project : FilePath
  test : Bool := false
  runtime : Bool := false
  dependencies : Option Location := none
  pom : Option Location := none
  format : Format := .arguments
  output : Option Location := none
  verbose : Bool := false

/-- Why arguments ask for nothing: help is given instead, or they are not understood. -/
inductive Ending where
  | help
  | usage
deriving DecidableEq

def Ending.status : Ending → Nat
  | .help => 0
  | .usage => 2

/-! ### Options -/

inductive Switch where
  | help
  | test
  | runtime
  | verbose
deriving DecidableEq

inductive Setting where
  | dependencies
  | pom
  | format
  | output
deriving DecidableEq

inductive OptionName where
  | switch (switch : Switch)
  | setting (setting : Setting)
deriving DecidableEq

def longOptions : List (String × OptionName) :=
  [("help", .switch .help), ("test", .switch .test), ("runtime", .switch .runtime),
    ("deps", .setting .dependencies), ("pom", .setting .pom), ("format", .setting .format),
    ("output", .setting .output), ("verbose", .switch .verbose)]

def shortOption? (letter : Char) : Option OptionName :=
  [('h', OptionName.switch .help), ('o', .setting .output), ('v', .switch .verbose)].lookup letter

/-- A word of the command line.  An option has one hyphen or two, and perhaps a text attached
to its name. -/
inductive Word where
  | operand (text : String)
  | separator
  | long (option : OptionName) (attached : Option (List Char))
  | short (option : OptionName) (attached : Option (List Char))
  | unknown

/-- A text up to the first equals sign, and what stands behind it. -/
def cutAtEquals (text : List Char) : List Char × Option (List Char) :=
  match Text.cutAt? '=' text with
  | some (name, value) => (name, some value)
  | none => (text, none)

/-- What letters behind a short option are attached as.  Right behind its letter an equals sign
does not count. -/
def attached? : List Char → Option (List Char)
  | [] => none
  | '=' :: value => some value
  | text => some text

def isNegativeNumber (text : List Char) : Bool :=
  let isDigit := fun c => (Text.digitValue? c).isSome
  let trimmed := if text.getLast? = some '\n' then text.dropLast else text
  match trimmed with
  | '-' :: digits =>
    match Text.cutAt? '.' digits with
    | none => digits ≠ [] && digits.all isDigit
    | some (whole, fraction) => whole.all isDigit && fraction ≠ [] && fraction.all isDigit
  | _ => false

def otherWord (text : List Char) : Word :=
  if isNegativeNumber text || text.contains ' ' then .operand (String.ofList text) else .unknown

/-- A word behind two hyphens.  A name that is no option's must begin the name of exactly
one. -/
def longWord (text : List Char) : Except Ending Word :=
  let (name, attached) := cutAtEquals text
  match longOptions.lookup (String.ofList name) with
  | some option => .ok (.long option attached)
  | none =>
    match longOptions.filter fun entry => name.isPrefixOf entry.1.toList with
    | [] => .ok (otherWord ('-' :: '-' :: text))
    | [(_, option)] => .ok (.long option attached)
    | _ => .error .usage

def shortWord (text : List Char) : Word :=
  match text with
  | [] => .operand "-"
  | letter :: rest =>
    match shortOption? letter with
    | some option => .short option (attached? rest)
    | none => otherWord ('-' :: text)

def words : List String → Except Ending (List Word)
  | [] => .ok []
  | text :: rest =>
    match text.toList with
    | ['-', '-'] => .ok (.separator :: rest.map .operand)
    | '-' :: '-' :: long => do return (← longWord long) :: (← words rest)
    | '-' :: short => do return shortWord short :: (← words rest)
    | _ => do return .operand text :: (← words rest)

/-! ### What the words mean -/

/-- What one option does.  Two hyphens attached to an option are a separator and no value. -/
inductive Effect where
  | switch (switch : Switch)
  | setting (setting : Setting) (value : Option String)

/-- The arguments read so far.  `isExceeded` tells that there were words too many. -/
structure Draft where
  project : Option FilePath := none
  test : Bool := false
  runtime : Bool := false
  dependencies : Option Location := none
  pom : Option Location := none
  format : Format := .arguments
  output : Option Location := none
  verbose : Bool := false
  isExceeded : Bool := false

def locationOf (value : Option String) : Location :=
  match value with
  | some text => .path (.ofText text)
  | none => .nowhere

namespace Draft

def apply (draft : Draft) : Effect → Except Ending Draft
  | .switch .help => .error .help
  | .switch .test => .ok { draft with test := true }
  | .switch .runtime => .ok { draft with runtime := true }
  | .switch .verbose => .ok { draft with verbose := true }
  | .setting .dependencies value => .ok { draft with dependencies := some (locationOf value) }
  | .setting .pom value => .ok { draft with pom := some (locationOf value) }
  | .setting .output value => .ok { draft with output := some (locationOf value) }
  | .setting .format none => .ok { draft with format := .arguments }
  | .setting .format (some value) =>
    match Format.ofWord? value with
    | some format => .ok { draft with format := format }
    | none => .error .usage

def exceed (draft : Draft) : Draft :=
  { draft with isExceeded := true }

/-- The arguments, if no word is missing and none too many. -/
def finish (draft : Draft) : Except Ending Arguments :=
  match draft.project with
  | none => .error .usage
  | some project =>
    if draft.isExceeded then .error .usage
    else .ok {
      project
      test := draft.test
      runtime := draft.runtime
      dependencies := draft.dependencies
      pom := draft.pom
      format := draft.format
      output := draft.output
      verbose := draft.verbose }

end Draft

def attachedValue (text : List Char) : Option String :=
  if text = ['-', '-'] then none else some (String.ofList text)

def nextValue : List Word → Except Ending (Option String × List Word)
  | .operand value :: rest => .ok (some value, rest)
  | _ => .error .usage

/-- What the letters of a word ask for, and the words left.  Behind a switch every letter must be
an option; behind an option with a value the rest of the word is the value. -/
def letterEffects (rest : List Word) (option : OptionName) :
    List Char → Except Ending (List Effect × List Word)
  | [] =>
    match option with
    | .switch switch => .ok ([.switch switch], rest)
    | .setting setting => do
      let (value, rest) ← nextValue rest
      return ([.setting setting value], rest)
  | letter :: letters =>
    match option with
    | .setting setting => .ok ([.setting setting (attachedValue (letter :: letters))], rest)
    | .switch switch =>
      match shortOption? letter with
      | none => .error .usage
      | some next => do
        let (effects, rest) ← letterEffects rest next letters
        return (.switch switch :: effects, rest)

/-- What an option asks for whose text is attached behind an equals sign or is missing. -/
def plainEffects (rest : List Word) (option : OptionName) (attached : Option (List Char)) :
    Except Ending (List Effect × List Word) :=
  match option, attached with
  | .setting setting, some text => .ok ([.setting setting (attachedValue text)], rest)
  | .switch _, some _ => .error .usage
  | _, none => letterEffects rest option []

/-- What an option with one hyphen asks for.  An equals sign alone gives a switch nothing. -/
def shortEffects (rest : List Word) (option : OptionName) (attached : Option (List Char)) :
    Except Ending (List Effect × List Word) :=
  match attached with
  | some (letter :: letters) => letterEffects rest option (letter :: letters)
  | _ => plainEffects rest option attached

def dropSeparator : List Word → List Word
  | .separator :: rest => rest
  | rest => rest

def readWords : Nat → Draft → List Word → Except Ending Draft
  | 0, draft, _ => .ok draft
  | fuel + 1, draft, words =>
    match words with
    | [] => .ok draft
    | .operand text :: rest =>
      if draft.project.isSome then readWords fuel draft.exceed rest
      else readWords fuel { draft with project := some (.ofText text) } (dropSeparator rest)
    | .separator :: rest =>
      readWords fuel (if draft.project.isSome then draft.exceed else draft) rest
    | .unknown :: rest => readWords fuel draft.exceed rest
    | .long option attached :: rest => do
      let (effects, rest) ← plainEffects rest option attached
      readWords fuel (← effects.foldlM Draft.apply draft) rest
    | .short option attached :: rest => do
      let (effects, rest) ← shortEffects rest option attached
      readWords fuel (← effects.foldlM Draft.apply draft) rest

def read (arguments : List String) : Except Ending Arguments := do
  let words ← words arguments
  let draft ← readWords (words.length + 1) {} words
  draft.finish

end ModulePlan.CommandLine
