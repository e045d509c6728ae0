/-
Writing YAML documents in blocks.

A text is written plainly where it reads back as itself, else in single quotes where it holds
visible ASCII characters alone, and else in double quotes with all other characters by
letters or numbers.  Lists stand at the indentation of the key before them.
-/

import ModulePlan.Document.Yaml.Tag
import ModulePlan.Text.Quoted

namespace ModulePlan.Document.Yaml

inductive Outline where
  | bool (value : Bool)
  | int (value : Int)
  | text (value : String)
  | list (items : List Outline)
  | mapping (entries : List (String × Outline))

/-! ### Texts -/

def isVisibleAscii (c : Char) : Bool :=
  ' ' ≤ c && c ≤ '~'

def isIndicator (c : Char) : Bool :=
  ['#', ',', '[', ']', '\x7b', '\x7d', '&', '*', '!', '|', '>', '\'', '"', '%', '@',
    '\x60'].contains c

/-- Do two characters that follow each other mean something inside a scalar? -/
def isMarkPair (first second : Char) : Bool :=
  (first = ':' && second = ' ') || (first = ' ' && second = '#')

/-- Does a mark stand before a gap or at the end, or a comment begin, in a text? -/
def hasMark : List Char → Bool
  | [] => false
  | [c] => c = ':'
  | c :: d :: rest => isMarkPair c d || hasMark (d :: rest)

def beginsLikeMark (text : List Char) : Bool :=
  match text with
  | [] => true
  | c :: rest =>
    isIndicator c || ((c = '-' || c = '?' || c = ':') && (rest = [] || rest.head? = some ' ')) ||
      text.take 3 = ['-', '-', '-'] || text.take 3 = ['.', '.', '.']

def isPlainText (text : List Char) : Bool :=
  text.all isVisibleAscii && !beginsLikeMark text && !hasMark text &&
    text.head? ≠ some ' ' && text.getLast? ≠ some ' ' && Tag.ofPlain text = .text

def escapedChar (c : Char) : List Char :=
  let letters := [('\x00', '0'), ('\x07', 'a'), ('\x08', 'b'), ('\t', 't'), ('\n', 'n'),
    ('\x0b', 'v'), ('\x0c', 'f'), ('\r', 'r'), ('\x1b', 'e'), ('"', '"'), ('\\', '\\'),
    ('\u0085', 'N'), ('\u00a0', '_'), ('\u2028', 'L'), ('\u2029', 'P')]
  match letters.lookup c with
  | some letter => ['\\', letter]
  | none =>
    let number := (Text.surrogateHalf? c).getD c.toNat
    if isVisibleAscii c then [c]
    else if number < 0x100 then '\\' :: 'x' :: (Text.hexDigits 2 number).map Char.toUpper
    else if number < 0x10000 then '\\' :: 'u' :: (Text.hexDigits 4 number).map Char.toUpper
    else '\\' :: 'U' :: (Text.hexDigits 8 number).map Char.toUpper

def writeText (text : String) : String :=
  let cs := text.toList
  if isPlainText cs then text
  else if cs.all isVisibleAscii then
    String.ofList ('\'' :: cs.flatMap (fun c => if c = '\'' then ['\'', '\''] else [c]) ++ ['\''])
  else String.ofList ('"' :: cs.flatMap escapedChar ++ ['"'])

/-! ### Blocks -/

/-- The longest key that stands before its colon without a mark of its own. -/
def simpleKeyLength : Nat := 128

def underItem : List String → List String
  | [] => []
  | line :: rest => ("- " ++ line) :: rest.map ("  " ++ ·)

/-- A value that stands on the line of its key, and one on the lines below it. -/
structure Written where
  inline : Option String
  below : List String := []

def writeEntry (key : String) (value : Written) : List String :=
  let name := writeText key
  let head := if name.length < simpleKeyLength then [name ++ ":"] else ["? " ++ name, ":"]
  match value.inline with
  | some text => head.dropLast ++ [head.getLastD "" ++ " " ++ text]
  | none => head ++ value.below

mutual

def lines : Outline → List String
  | .bool value => [if value then "true" else "false"]
  | .int value => [toString value]
  | .text value => [writeText value]
  | .list [] => ["[]"]
  | .list items => itemLines items
  | .mapping [] => ["\x7b\x7d"]
  | .mapping entries => entryLines entries

def itemLines : List Outline → List String
  | [] => []
  | item :: rest => underItem (lines item) ++ itemLines rest

def entryLines : List (String × Outline) → List String
  | [] => []
  | (key, value) :: rest =>
    let below := lines value
    let written : Written :=
      match value with
      | .list (_ :: _) => ⟨none, below⟩
      | .mapping (_ :: _) => ⟨none, below.map ("  " ++ ·)⟩
      | _ => ⟨below.head?, []⟩
    writeEntry key written ++ entryLines rest

end

def write (outline : Outline) : String :=
  String.join ((lines outline).map (· ++ "\n"))

end ModulePlan.Document.Yaml
