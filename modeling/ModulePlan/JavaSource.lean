/-
Source files of modules.

Of the syntax tree of a source file the program uses the children of the root: of which kind each
is, and how it is named.  The parser here gives the module declaration among them and leaves out
all others, which are passed over in any case.  The text is cut into words, signs, literals and
the gaps between them; a line comment goes on to the line feed.  A module is declared where,
outside all brackets, the word `module`, a qualified name and an opening brace follow one another,
unless that word is part of the name of an annotation.  The name is the text from its first
identifier to its last one.
-/

import ModulePlan.Text.Blank
import ModulePlan.Text.Identifier
import ModulePlan.Text.Utf8

namespace ModulePlan

/-- A node of a syntax tree: its kind, and the text of its field `name` where it has one. -/
structure SyntaxNode where
  kind : String
  name : Option (List UInt8)
deriving DecidableEq

namespace JavaSource

def moduleKind : String := "module_declaration"

inductive Piece where
  | gap (text : List Char)
  | word (text : List Char)
  | sign (c : Char)
  | literal
deriving DecidableEq

def spanComment : List Char → List Char × List Char
  | [] => ([], [])
  | '*' :: '/' :: rest => (['*', '/'], rest)
  | c :: rest =>
    let (comment, after) := spanComment rest
    (c :: comment, after)

def afterLiteral (quote : Char) : List Char → List Char
  | [] => []
  | '\\' :: _ :: rest => afterLiteral quote rest
  | c :: rest => if c = quote then rest else afterLiteral quote rest

def afterTextBlock : List Char → List Char
  | [] => []
  | '\\' :: _ :: rest => afterTextBlock rest
  | '"' :: '"' :: '"' :: rest => rest
  | _ :: rest => afterTextBlock rest

theorem length_spanComment_le (cs : List Char) : (spanComment cs).2.length ≤ cs.length := by
  fun_induction spanComment cs with
  | case1 => simp
  | case2 rest =>
    simp only [List.length_cons]
    omega
  | case3 c rest _ comment after _ ih =>
    simp_all only [List.length_cons]
    omega

theorem length_afterLiteral_le (quote : Char) (cs : List Char) :
    (afterLiteral quote cs).length ≤ cs.length := by
  fun_induction afterLiteral quote cs <;> simp only [List.length_nil, List.length_cons] at * <;>
    omega

theorem length_afterTextBlock_le (cs : List Char) :
    (afterTextBlock cs).length ≤ cs.length := by
  fun_induction afterTextBlock cs <;> simp only [List.length_nil, List.length_cons] at * <;> omega

def pieces : List Char → List Piece
  | [] => []
  | '/' :: '/' :: rest =>
    .gap ('/' :: '/' :: rest.takeWhile (· ≠ '\n')) :: pieces (rest.dropWhile (· ≠ '\n'))
  | '/' :: '*' :: rest =>
    .gap ('/' :: '*' :: (spanComment rest).1) :: pieces (spanComment rest).2
  | '"' :: '"' :: '"' :: rest => .literal :: pieces (afterTextBlock rest)
  | c :: rest =>
    if Text.isBlank c then .gap [c] :: pieces rest
    else if c = '"' || c = '\'' then .literal :: pieces (afterLiteral c rest)
    else if Text.isIdentifierStart c then
      .word (c :: rest.takeWhile Text.isIdentifierPart) ::
        pieces (rest.dropWhile Text.isIdentifierPart)
    else .sign c :: pieces rest
termination_by cs => cs.length
decreasing_by
  all_goals simp only [List.length_cons]
  · have := (List.dropWhile_sublist (fun c => decide (c ≠ '\n')) (l := rest)).length_le
    omega
  · have := length_spanComment_le rest
    omega
  · have := length_afterTextBlock_le rest
    omega
  · omega
  · have := length_afterLiteral_le c rest
    omega
  · have := (List.dropWhile_sublist Text.isIdentifierPart (l := rest)).length_le
    omega
  · omega

/-- The text of a qualified name that a brace follows.  `named` tells whether an identifier
stands before this place; `pending` is the text since then. -/
def qualifiedName? (named : Bool) (pending : List Char) : List Piece → Option (List Char)
  | [] => none
  | .gap text :: rest => qualifiedName? named (pending ++ text) rest
  | .word text :: rest =>
    if named then none else (qualifiedName? true [] rest).map (pending ++ text ++ ·)
  | .sign c :: rest =>
    if !named then none
    else if c = '.' then qualifiedName? false (pending ++ ['.']) rest
    else if c = '\x7b' then some []
    else none
  | .literal :: _ => none

def dropGaps (parts : List Piece) : List Piece :=
  parts.dropWhile fun
    | .gap _ => true
    | _ => false

/-- How deep within brackets the text behind a sign is. -/
def depthBehind (depth : Nat) (c : Char) : Nat :=
  if c = '\x7b' || c = '(' || c = '[' then depth + 1
  else if c = '\x7d' || c = ')' || c = ']' then depth - 1
  else depth

/-- Does a sign go on in the next word, as in the name of an annotation? -/
def isJoining (c : Char) : Bool :=
  c = '@' || c = '.'

/-- The name in the first module declaration, as it is written.  `joined` tells whether the next
word belongs to the sign before it, so that it begins no declaration. -/
def writtenName? (depth : Nat) (joined : Bool) : List Piece → Option (List Char)
  | [] => none
  | .gap _ :: rest => writtenName? depth joined rest
  | .word text :: rest =>
    match if depth = 0 && !joined && text = "module".toList then
        qualifiedName? false [] (dropGaps rest)
      else none with
    | some name => some name
    | none => writtenName? depth false rest
  | .sign c :: rest => writtenName? (depthBehind depth c) (isJoining c) rest
  | .literal :: rest => writtenName? depth false rest

/-- The children of the root, as far as they declare a module.  Bytes that are not UTF-8 are read
as the replacement character. -/
def parse (data : List UInt8) : List SyntaxNode :=
  let name := writtenName? 0 false (pieces (Text.Utf8.decodeLossy data).toList)
  (name.map fun text => ⟨moduleKind, some (Text.Utf8.encode (String.ofList text))⟩).toList

end JavaSource

end ModulePlan
