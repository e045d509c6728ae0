/-
Source files of modules, as the language lays them out.

A source file is a sequence of white space, comments, words, literals and single signs.  No two
of them may run together: a line comment goes on to the end of its line, a word to its last
letter, and a slash begins no comment.  A file declares a module where, behind imports and
annotations, `module`, a qualified name and an opening brace follow one another, and gaps may
stand between any two tokens.  Of a parser it is taken for granted that it finds the declaration
and its name.
-/

import Mathlib.Data.List.Infix
import ModulePlan.JavaSource

namespace ModulePlan.JavaSource

/-! ### Tokens -/

/-- What a source file is made of.  Of a number, each digit counts as a sign. -/
inductive Token where
  | blank (c : Char)
  | lineComment (body : List Char)
  | blockComment (body : List Char)
  | word (text : List Char)
  | sign (c : Char)
  | literal (mark body : List Char)
deriving DecidableEq

/-- The body of a literal: a backslash takes the next character with it, and nowhere else does
the mark that closes the literal begin. -/
inductive IsBody (mark : List Char) : List Char → Prop
  | nil : IsBody mark []
  | escape (c : Char) {rest : List Char} (inside : IsBody mark rest) :
      IsBody mark ('\\' :: c :: rest)
  | plain {c : Char} {rest : List Char} (unlike : c ≠ '\\')
      (goesOn : ¬mark <+: c :: (rest ++ mark)) (inside : IsBody mark rest) :
      IsBody mark (c :: rest)

def decideBody (mark : List Char) : (body : List Char) → Decidable (IsBody mark body)
  | [] => isTrue .nil
  | [c] => decidable_of_iff (c ≠ '\\' ∧ ¬mark <+: c :: ([] ++ mark)) (by
      constructor
      · rintro ⟨unlike, goesOn⟩
        exact .plain unlike goesOn .nil
      · rintro (_ | _ | ⟨unlike, goesOn, _⟩)
        exact ⟨unlike, goesOn⟩)
  | c :: d :: rest =>
    have := decideBody mark rest
    have := decideBody mark (d :: rest)
    decidable_of_iff (if c = '\\' then IsBody mark rest
      else ¬mark <+: c :: (d :: rest ++ mark) ∧ IsBody mark (d :: rest)) (by
      split
      · rename_i same
        rw [same]
        constructor
        · exact .escape d
        · rintro (_ | ⟨_, inside⟩ | ⟨unlike, _, _⟩)
          · exact inside
          · exact absurd rfl unlike
      · rename_i unlike
        constructor
        · rintro ⟨goesOn, inside⟩
          exact .plain unlike goesOn inside
        · rintro (_ | _ | ⟨_, goesOn, inside⟩)
          · exact absurd rfl unlike
          · exact ⟨goesOn, inside⟩)

instance (mark body : List Char) : Decidable (IsBody mark body) :=
  decideBody mark body

/-- The marks around characters, texts, and texts of several lines. -/
def marks : List (List Char) :=
  [['\''], ['"'], ['"', '"', '"']]

namespace Token

def chars : Token → List Char
  | .blank c => [c]
  | .lineComment body => '/' :: '/' :: body
  | .blockComment body => '/' :: '*' :: (body ++ ['*', '/'])
  | .word text => text
  | .sign c => [c]
  | .literal mark body => mark ++ (body ++ mark)

/-- A comment does not hold its own end, and a sign is of no other kind.  Of a line end of two
characters, the carriage return may count to the comment before it. -/
def IsProper : Token → Prop
  | .blank c => Text.isBlank c = true
  | .lineComment body => '\n' ∉ body ∧ '\r' ∉ body.dropLast
  | .blockComment body => ¬['*', '/'] <:+: body
  | .word text => Text.isIdentifier text = true
  | .sign c => Text.isBlank c = false ∧ Text.isIdentifierStart c = false ∧ c ∉ ['\'', '"']
  | .literal mark body => mark ∈ marks ∧ IsBody mark body

instance (token : Token) : Decidable token.IsProper :=
  match token with
  | .blank c => inferInstanceAs (Decidable (Text.isBlank c = true))
  | .lineComment body => inferInstanceAs (Decidable ('\n' ∉ body ∧ '\r' ∉ body.dropLast))
  | .blockComment body => inferInstanceAs (Decidable ¬['*', '/'] <:+: body)
  | .word text => inferInstanceAs (Decidable (Text.isIdentifier text = true))
  | .sign c => inferInstanceAs (Decidable
      (Text.isBlank c = false ∧ Text.isIdentifierStart c = false ∧ c ∉ ['\'', '"']))
  | .literal mark body => inferInstanceAs (Decidable (mark ∈ marks ∧ IsBody mark body))

/-- A token does not run together with the text behind it.  A line ends at a line feed, at a
carriage return, or at both. -/
def EndsBefore (next : List Char) : Token → Prop
  | .lineComment body => ∀ c ∈ next.head?, c = '\n' ∨ c = '\r' ∧ '\r' ∉ body
  | .word _ => ∀ c ∈ next.head?, Text.isIdentifierPart c = false
  | .sign c => c = '/' → ∀ d ∈ next.head?, d ∉ ['/', '*']
  | .literal mark body => mark = ['"'] → body = [] → ∀ c ∈ next.head?, c ≠ '"'
  | .blank _ | .blockComment _ => True

/-- The first character behind a token is tried, not all characters. -/
instance (next : List Char) (token : Token) : Decidable (token.EndsBefore next) :=
  match token with
  | .lineComment body =>
    (Option.decidableForallMem next.head? :
      Decidable (∀ c ∈ next.head?, c = '\n' ∨ c = '\r' ∧ '\r' ∉ body))
  | .word _ =>
    (Option.decidableForallMem next.head? :
      Decidable (∀ c ∈ next.head?, Text.isIdentifierPart c = false))
  | .sign c =>
    have : Decidable (∀ d ∈ next.head?, d ∉ ['/', '*']) := Option.decidableForallMem next.head?
    inferInstanceAs (Decidable (c = '/' → ∀ d ∈ next.head?, d ∉ ['/', '*']))
  | .literal mark body =>
    have : Decidable (∀ c ∈ next.head?, c ≠ '"') := Option.decidableForallMem next.head?
    inferInstanceAs (Decidable (mark = ['"'] → body = [] → ∀ c ∈ next.head?, c ≠ '"'))
  | .blank _ | .blockComment _ => isTrue trivial

def isGap : Token → Bool
  | .blank _ | .lineComment _ | .blockComment _ => true
  | .word _ | .sign _ | .literal .. => false

def isComment : Token → Bool
  | .lineComment _ | .blockComment _ => true
  | .blank _ | .word _ | .sign _ | .literal .. => false

end Token

/-- The text of some tokens. -/
def textOf (tokens : List Token) : List Char :=
  tokens.flatMap Token.chars

/-- A condition on each token and the text behind it. -/
def EachBefore (holds : List Char → Token → Prop) : List Token → Prop
  | [] => True
  | token :: rest => holds (textOf rest) token ∧ EachBefore holds rest

def decideEachBefore {holds : List Char → Token → Prop}
    [∀ next token, Decidable (holds next token)] :
    (tokens : List Token) → Decidable (EachBefore holds tokens)
  | [] => isTrue trivial
  | token :: rest =>
    have : Decidable (EachBefore holds rest) := decideEachBefore rest
    inferInstanceAs (Decidable (holds (textOf rest) token ∧ EachBefore holds rest))

instance {holds : List Char → Token → Prop} [∀ next token, Decidable (holds next token)]
    (tokens : List Token) : Decidable (EachBefore holds tokens) :=
  decideEachBefore tokens

/-- Tokens that make up a source file. -/
def AreApart (tokens : List Token) : Prop :=
  EachBefore (fun next token => token.IsProper ∧ token.EndsBefore next) tokens

instance (tokens : List Token) : Decidable (AreApart tokens) :=
  inferInstanceAs (Decidable (EachBefore _ tokens))

/-- A carriage return alone ends a comment, and the word behind it is no part of the comment. -/
example : AreApart [.lineComment ['c'], .blank '\r', .word ['a']] ∧
    ¬AreApart [.lineComment ['c', '\r', 'a']] := by
  decide

theorem textOf_append (first second : List Token) :
    textOf (first ++ second) = textOf first ++ textOf second :=
  List.flatMap_append

theorem proper_of_areApart {tokens : List Token} (apart : AreApart tokens) :
    ∀ token ∈ tokens, token.IsProper := by
  induction tokens with
  | nil => exact List.forall_mem_nil _
  | cons token rest ih => exact List.forall_mem_cons.mpr ⟨apart.1.1, ih apart.2⟩

def AreGaps (tokens : List Token) : Prop :=
  ∀ token ∈ tokens, token.isGap = true

instance (tokens : List Token) : Decidable (AreGaps tokens) :=
  inferInstanceAs (Decidable (∀ token ∈ tokens, token.isGap = true))

theorem areGaps_append {first second : List Token} :
    AreGaps (first ++ second) ↔ AreGaps first ∧ AreGaps second :=
  List.forall_mem_append

/-! ### Names -/

/-- A further identifier of a name, with what stands before and behind its dot. -/
structure Further where
  before : List Token
  after : List Token
  identifier : List Char

namespace Further

def tokens (further : Further) : List Token :=
  further.before ++ .sign '.' :: (further.after ++ [.word further.identifier])

def gaps (further : Further) : List Token :=
  further.before ++ further.after

end Further

structure QualifiedName where
  first : List Char
  others : List Further

namespace QualifiedName

def tokens (name : QualifiedName) : List Token :=
  .word name.first :: name.others.flatMap Further.tokens

/-- What stands between the identifiers and the dots. -/
def gaps (name : QualifiedName) : List Token :=
  name.others.flatMap Further.gaps

def identifiers (name : QualifiedName) : List (List Char) :=
  name.first :: name.others.map Further.identifier

/-- The identifiers with dots between them, and nothing else. -/
def joined (name : QualifiedName) : String :=
  String.ofList (['.'].intercalate name.identifiers)

/-- The text from the first to the last identifier, without its white space. -/
def shown (name : QualifiedName) : String :=
  String.ofList ((textOf name.tokens).filter fun c => !Text.isBlank c)

end QualifiedName

/-! ### Declarations -/

def bracketPairs : List (Char × Char) :=
  [('(', ')'), ('[', ']'), ('\x7b', '\x7d')]

namespace Token

def isBracket : Token → Bool
  | .sign c => bracketPairs.any fun (opening, closing) => c = opening || c = closing
  | _ => false

end Token

/-- Each bracket that opens is closed by one of its kind. -/
inductive IsBalanced : List Token → Prop
  | nil : IsBalanced []
  | plain {token : Token} {rest : List Token} (unlike : token.isBracket = false)
      (later : IsBalanced rest) : IsBalanced (token :: rest)
  | group {opening closing : Char} {inside rest : List Token}
      (pair : (opening, closing) ∈ bracketPairs) (within : IsBalanced inside)
      (later : IsBalanced rest) :
      IsBalanced (.sign opening :: (inside ++ .sign closing :: rest))

/-- What may stand before a module declaration. -/
inductive IsPreamble : List Token → Prop
  | nil : IsPreamble []
  | gap {token : Token} {rest : List Token} (gap : token.isGap = true)
      (later : IsPreamble rest) : IsPreamble (token :: rest)
  | opening {rest : List Token} (later : IsPreamble rest) :
      IsPreamble (.word "open".toList :: rest)
  | importing {imported rest : List Token}
      (plain : ∀ token ∈ imported, token.isBracket = false) (later : IsPreamble rest) :
      IsPreamble (.word "import".toList :: (imported ++ .sign ';' :: rest))
  | marked {gap : List Token} {name : QualifiedName} {rest : List Token}
      (gaps : AreGaps gap) (named : AreGaps name.gaps) (later : IsPreamble rest) :
      IsPreamble (.sign '@' :: (gap ++ (name.tokens ++ rest)))
  | arguments {inside rest : List Token} (balanced : IsBalanced inside)
      (later : IsPreamble rest) : IsPreamble (.sign '(' :: (inside ++ .sign ')' :: rest))

/-- A source file around the name of a module. -/
structure Declaration where
  preamble : List Token
  gap : List Token
  name : QualifiedName
  space : List Token
  rest : List Token

namespace Declaration

def tokens (declaration : Declaration) : List Token :=
  declaration.preamble ++ .word "module".toList :: (declaration.gap ++
    (declaration.name.tokens ++ (declaration.space ++ .sign '\x7b' :: declaration.rest)))

/-- Before the word `module` stand gaps, imports, annotations and the word `open`, and between it,
the parts of the name and the brace only gaps. -/
structure IsProper (declaration : Declaration) : Prop where
  preamble : IsPreamble declaration.preamble
  gap : AreGaps declaration.gap
  name : AreGaps declaration.name.gaps
  space : AreGaps declaration.space

end Declaration

/-- The file declares a module.  What an import names, what the arguments of an annotation are and
what stands behind the brace is left open. -/
def DeclaresModule (tokens : List Token) : Prop :=
  ∃ declaration : Declaration, tokens = declaration.tokens ∧ declaration.IsProper

/-! ### Parsers -/

/-- The bytes of some tokens. -/
def bytesOf (tokens : List Token) : List UInt8 :=
  Text.Utf8.encode (String.ofList (textOf tokens))

/-- What is taken for granted of a parser at a source file: a child of the root declares a module
exactly if the file does, and its name is the text from the first identifier to the last one. -/
structure IsFaithful (parse : List UInt8 → List SyntaxNode) (tokens : List Token) : Prop where
  child : (∃ node ∈ parse (bytesOf tokens), node.kind = moduleKind) ↔ DeclaresModule tokens
  name : ∀ declaration : Declaration, tokens = declaration.tokens → declaration.IsProper →
    ∀ node ∈ parse (bytesOf tokens), node.kind = moduleKind →
      node.name = some (bytesOf declaration.name.tokens)

end ModulePlan.JavaSource
