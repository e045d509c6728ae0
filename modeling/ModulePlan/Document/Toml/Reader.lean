/-
Reading TOML documents.

A document is a sequence of lines, each of which is empty, names the table that the following
lines fill, or gives a key a value.  A document that breaks a rule is malformed as a whole.
-/

import ModulePlan.Document.Toml.Scalar
import ModulePlan.Document.Toml.Table

namespace ModulePlan.Document.Toml

def isSpace (c : Char) : Bool :=
  c = ' ' || c = '\t'

def dropSpaces (cs : List Char) : List Char :=
  cs.dropWhile isSpace

def isBareKeyChar (c : Char) : Bool :=
  Text.isAsciiLetter c || Text.isAsciiDigit c || c = '-' || c = '_'

def skipComment : List Char → Except Refusal (List Char)
  | '#' :: rest =>
    let comment := rest.takeWhile (· ≠ '\n')
    if comment.any isControl then .error .malformed else .ok (rest.drop comment.length)
  | cs => .ok cs

def skipLines (inComment : Bool) : List Char → Except Refusal (List Char)
  | [] => .ok []
  | c :: rest =>
    if c = '\n' then skipLines false rest
    else if inComment then if isControl c then .error .malformed else skipLines true rest
    else if isSpace c then skipLines false rest
    else if c = '#' then skipLines true rest
    else .ok (c :: rest)

def keyPart (cs : List Char) : Reading String :=
  let bare := cs.takeWhile isBareKeyChar
  if bare ≠ [] then .ok (String.ofList bare, cs.drop bare.length)
  else
    match cs with
    | '"' :: rest => (basicText false rest).map fun (text, after) => (String.ofList text, after)
    | '\'' :: rest => (literalText rest).map fun (text, after) => (String.ofList text, after)
    | _ => .error .malformed

def key : Nat → List Char → Except Refusal (Key × List Char)
  | 0, _ => .error .malformed
  | fuel + 1, cs => do
    let (name, rest) ← keyPart cs
    match dropSpaces rest with
    | '.' :: rest => do
      let (names, after) ← key fuel (dropSpaces rest)
      return (name :: names, after)
    | rest => return ([name], rest)

/-! ### Values -/

/-- How many steps deep values may be nested.  A list is two steps deeper than what it stands
in, and a table three. -/
def nestingLimit : Nat := 980

def deeper (steps room : Nat) : Except Refusal Nat :=
  if room < steps then .error (.fault (.kind .tooDeep)) else .ok (room - steps)

mutual

def value (room : Nat) : Nat → List Char → Except Refusal (Value × List Char)
  | 0, _ => .error .malformed
  | fuel + 1, cs =>
    match text? cs with
    | some reading => reading.map fun (text, after) => (.text (String.ofList text), after)
    | none =>
      match cs with
      | '[' :: rest => do listItems (← deeper 2 room) fuel [] rest
      | '\x7b' :: rest =>
        match dropSpaces rest with
        | '\x7d' :: after => .ok (.mapping [], after)
        | rest => do inlineEntries (← deeper 3 room) fuel [] [] rest
      | _ => plainScalar cs
termination_by structural fuel => fuel

/-- The items of a list up to its closing bracket, behind those already read, which are given
with the last one first. -/
def listItems (room : Nat) :
    Nat → List Value → List Char → Except Refusal (Value × List Char)
  | 0, _, _ => .error .malformed
  | fuel + 1, items, cs => do
    match ← skipLines false cs with
    | ']' :: after => return (.list items.reverse, after)
    | rest =>
      let (item, rest) ← value room fuel rest
      match ← skipLines false rest with
      | ']' :: after => return (.list (item :: items).reverse, after)
      | ',' :: rest => listItems room fuel (item :: items) rest
      | _ => .error .malformed
termination_by structural fuel => fuel

/-- The entries of a table that is written in one place, up to its closing brace. -/
def inlineEntries (room : Nat) :
    Nat → Entries → Closures → List Char → Except Refusal (Value × List Char)
  | 0, _, _, _ => .error .malformed
  | fuel + 1, entries, closures, cs => do
    let (place, rest) ← key fuel cs
    match rest with
    | '=' :: rest =>
      let (item, rest) ← value room fuel (dropSpaces rest)
      match putInline entries closures place item with
      | none => .error .malformed
      | some (entries, closures) =>
        match dropSpaces rest with
        | '\x7d' :: after => return (.mapping entries, after)
        | ',' :: rest => inlineEntries room fuel entries closures (dropSpaces rest)
        | _ => .error .malformed
    | _ => .error .malformed
termination_by structural fuel => fuel

end

/-! ### Statements -/

def claimed (draft : Option Draft) : Except Refusal Draft :=
  match draft with
  | some draft => .ok draft
  | none => .error .malformed

/-- One statement, at whose first character the text begins. -/
def statement (fuel : Nat) (draft : Draft) (cs : List Char) :
    Except Refusal (Draft × List Char) :=
  match cs with
  | '[' :: '[' :: rest => do
    let (place, rest) ← key fuel (dropSpaces rest)
    match rest with
    | ']' :: ']' :: after => return (← claimed (draft.openListItem place), after)
    | _ => .error .malformed
  | '[' :: rest => do
    let (place, rest) ← key fuel (dropSpaces rest)
    match rest with
    | ']' :: after => return (← claimed (draft.openTable place), after)
    | _ => .error .malformed
  | '#' :: rest => return (draft, '#' :: rest)
  | _ => do
    let (place, rest) ← key fuel cs
    match rest with
    | '=' :: rest =>
      let (item, after) ← value nestingLimit fuel (dropSpaces rest)
      return (← claimed (draft.putValue place item), after)
    | _ => .error .malformed

def statements : Nat → Draft → List Char → Except Refusal Draft
  | 0, draft, _ => .ok draft
  | fuel + 1, draft, cs =>
    match dropSpaces cs with
    | [] => .ok draft
    | '\n' :: rest => statements fuel draft rest
    | start => do
      let (draft, rest) ← statement fuel draft start
      match ← skipComment (dropSpaces rest) with
      | [] => return draft
      | '\n' :: rest => statements fuel draft rest
      | _ => .error .malformed

/-- The characters behind those already seen, which are given with the last one first.  A
carriage return before a line feed does not count. -/
def dropCarriageReturns (seen : List Char) : List Char → List Char
  | [] => seen.reverse
  | '\r' :: '\n' :: rest => dropCarriageReturns ('\n' :: seen) rest
  | c :: rest => dropCarriageReturns (c :: seen) rest

def read (text : String) : Except Refusal Entries := do
  let cs := dropCarriageReturns [] text.toList
  let draft ← statements (2 * cs.length + 2) {} cs
  return draft.entries

end ModulePlan.Document.Toml
