/-
Argument files, read back.

The reader takes a file character by character, as the compiler does.  An argument in quotes is
read as it was before it was quoted, and one without quotes as it is; only where a number sign
stands first outside of quotes, the line is taken for a comment and nothing is read.
-/

import ModulePlan.ArgumentFile

namespace ModulePlan.ArgumentFile

/-! ### The reader -/

def separates (c : Char) : Bool :=
  c == ' ' || c == '\t' || c == '\n' || c == '\r' || c == '\x0c'

def endsLine (c : Char) : Bool :=
  c == '\n' || c == '\r'

def isQuote (c : Char) : Bool :=
  c == '\'' || c == '"'

/-- What a character stands for behind a backslash. -/
def unescape (c : Char) : Char :=
  if c = 'n' then '\n'
  else if c = 't' then '\t'
  else if c = 'r' then '\r'
  else if c = 'f' then '\x0c'
  else c

/-- Where the reader stands.  In an argument it knows what it has read of it, and in a quote
also the mark that closes it. -/
inductive Place where
  | between
  | comment
  | plain (argument : List Char)
  | quoted (mark : Char) (argument : List Char)
  | escaped (mark : Char) (argument : List Char)
deriving DecidableEq

/-- The arguments from a place on.  A quote is closed by the mark that opened it, and a line end
closes an argument even in a quote; a backslash stands for itself outside of quotes. -/
def readFrom : Place → List Char → List (List Char)
  | .between, [] | .comment, [] => []
  | .plain argument, [] | .quoted _ argument, [] | .escaped _ argument, [] => [argument]
  | .between, c :: rest =>
    if separates c then readFrom .between rest
    else if c = '#' then readFrom .comment rest
    else if isQuote c then readFrom (.quoted c []) rest
    else readFrom (.plain [c]) rest
  | .comment, c :: rest =>
    if endsLine c then readFrom .between rest else readFrom .comment rest
  | .plain argument, c :: rest =>
    if separates c then argument :: readFrom .between rest
    else if isQuote c then readFrom (.quoted c argument) rest
    else readFrom (.plain (argument ++ [c])) rest
  | .quoted mark argument, c :: rest =>
    if endsLine c then argument :: readFrom .between rest
    else if c = mark then readFrom (.plain argument) rest
    else if c = '\\' then readFrom (.escaped mark argument) rest
    else readFrom (.quoted mark (argument ++ [c])) rest
  | .escaped mark argument, c :: rest => readFrom (.quoted mark (argument ++ [unescape c])) rest

def read (text : String) : List String :=
  (readFrom .between text.toList).map String.ofList

/-! ### Arguments without quotes -/

/-- A character that no argument needs quotes for does not end an argument or open a quote. -/
theorem continues_of_bare {c : Char} (bare : needsQuotes c = false) :
    separates c = false ∧ endsLine c = false ∧ isQuote c = false := by
  have blank : ∀ other : Char, Text.isBlank other = true → c ≠ other := by
    intro other blank same
    rcases same with rfl
    simp [needsQuotes, blank] at bare
  have quote : isQuote c = false := by
    unfold needsQuotes at bare
    simp only [Bool.or_eq_false_iff] at bare
    simp [isQuote, bare.1.2, bare.2]
  have space := blank ' ' (by decide)
  have tab := blank '\t' (by decide)
  have feed := blank '\n' (by decide)
  have carriage := blank '\r' (by decide)
  have form := blank '\x0c' (by decide)
  refine ⟨?_, ?_, quote⟩
  · simp [separates, space, tab, feed, carriage, form]
  · simp [endsLine, feed, carriage]

theorem readFrom_plain {cs : List Char} (bare : ∀ c ∈ cs, needsQuotes c = false)
    (argument rest : List Char) :
    readFrom (.plain argument) (cs ++ '\n' :: rest) =
      (argument ++ cs) :: readFrom .between rest := by
  induction cs generalizing argument with
  | nil =>
      rw [List.nil_append, List.append_nil, readFrom, if_pos (by decide)]
  | cons c cs ih =>
      obtain ⟨here, later⟩ := List.forall_mem_cons.mp bare
      obtain ⟨inside, _, unquoted⟩ := continues_of_bare here
      rw [List.cons_append, readFrom, inside, unquoted, if_neg Bool.false_ne_true,
        if_neg Bool.false_ne_true, ih later, List.append_assoc, List.singleton_append]

theorem readFrom_comment {cs : List Char} (bare : ∀ c ∈ cs, needsQuotes c = false)
    (rest : List Char) :
    readFrom .comment (cs ++ '\n' :: rest) = readFrom .between rest := by
  induction cs with
  | nil => rw [List.nil_append, readFrom, if_pos (by decide)]
  | cons c cs ih =>
      obtain ⟨here, later⟩ := List.forall_mem_cons.mp bare
      rw [List.cons_append, readFrom, (continues_of_bare here).2.1, if_neg Bool.false_ne_true,
        ih later]

/-! ### Arguments in quotes -/

/-- A character is written as itself, or behind a backslash as a letter that stands for it. -/
theorem escape_cases (c : Char) :
    (escape c = [c] ∧ endsLine c = false ∧ c ≠ '"' ∧ c ≠ '\\') ∨
      ∃ letter, escape c = ['\\', letter] ∧ unescape letter = c := by
  by_cases special : c ∈ ['\\', '\'', '"', '\n', '\r', '\t', '\x0c']
  · right
    simp only [List.mem_cons, List.not_mem_nil, or_false] at special
    rcases special with rfl | rfl | rfl | rfl | rfl | rfl | rfl
    all_goals exact ⟨_, rfl, rfl⟩
  · left
    simp only [List.mem_cons, List.not_mem_nil, or_false, not_or] at special
    obtain ⟨backslash, single, double, feed, carriage, tab, form⟩ := special
    refine ⟨?_, ?_, double, backslash⟩
    · simp [escape, backslash, single, double, feed, carriage, tab, form]
    · simp [endsLine, feed, carriage]

theorem readFrom_escape (c : Char) (argument rest : List Char) :
    readFrom (.quoted '"' argument) (escape c ++ rest) =
      readFrom (.quoted '"' (argument ++ [c])) rest := by
  rcases escape_cases c with ⟨itself, inside, noMark, noBackslash⟩ | ⟨letter, behind, same⟩
  · rw [itself, List.singleton_append, readFrom, inside, if_neg Bool.false_ne_true,
      if_neg noMark, if_neg noBackslash]
  · have begun : readFrom (.quoted '"' argument) ('\\' :: letter :: rest) =
        readFrom (.quoted '"' (argument ++ [unescape letter])) rest := rfl
    rw [behind, List.cons_append, List.singleton_append, begun, same]

theorem readFrom_escapes (cs argument rest : List Char) :
    readFrom (.quoted '"' argument) (cs.flatMap escape ++ rest) =
      readFrom (.quoted '"' (argument ++ cs)) rest := by
  induction cs generalizing argument with
  | nil => rw [List.flatMap_nil, List.nil_append, List.append_nil]
  | cons c cs ih =>
      rw [List.flatMap_cons, List.append_assoc, readFrom_escape, ih, List.append_assoc,
        List.singleton_append]

theorem readFrom_quotes (cs rest : List Char) :
    readFrom .between ('"' :: cs.flatMap escape ++ ['"'] ++ '\n' :: rest) =
      cs :: readFrom .between rest := by
  have opened : readFrom .between ('"' :: (cs.flatMap escape ++ '"' :: '\n' :: rest)) =
      readFrom (.quoted '"' []) (cs.flatMap escape ++ '"' :: '\n' :: rest) := rfl
  have closed : readFrom (.quoted '"' cs) ('"' :: '\n' :: rest) = cs :: readFrom .between rest :=
    rfl
  rw [List.cons_append, List.cons_append, List.append_assoc, List.singleton_append, opened,
    readFrom_escapes, List.nil_append, closed]

/-! ### Lines -/

/-- An argument that is written as a comment. -/
def IsComment (argument : String) : Prop :=
  argument.toList.head? = some '#' ∧
    ∀ c ∈ argument.toList, Text.isBlank c = false ∧ c ≠ '\'' ∧ c ≠ '"'

instance (argument : String) : Decidable (IsComment argument) :=
  inferInstanceAs (Decidable (_ ∧ _))

theorem needsQuotes_eq_false_iff {c : Char} :
    needsQuotes c = false ↔ Text.isBlank c = false ∧ c ≠ '\'' ∧ c ≠ '"' := by
  unfold needsQuotes
  simp [and_assoc]

/-- The line of an argument is read as the argument, or as nothing. -/
theorem readFrom_line (argument : String) (rest : List Char) :
    readFrom .between (quoteChars argument.toList ++ '\n' :: rest) =
      if IsComment argument then readFrom .between rest
      else argument.toList :: readFrom .between rest := by
  unfold IsComment
  simp only [← needsQuotes_eq_false_iff]
  unfold quoteChars
  cases argument.toList with
  | nil => rfl
  | cons c cs =>
      rw [List.isEmpty_cons, if_neg Bool.false_ne_true]
      by_cases quoted : (c :: cs).any needsQuotes = true
      · have seen : ¬∀ other ∈ c :: cs, needsQuotes other = false := by
          intro bare
          obtain ⟨other, present, needs⟩ := List.any_eq_true.mp quoted
          rw [bare other present] at needs
          cases needs
        rw [if_pos quoted, if_neg fun comment => seen comment.2, readFrom_quotes]
      · have bare : ∀ other ∈ c :: cs, needsQuotes other = false := by
          simpa using quoted
        obtain ⟨here, later⟩ := List.forall_mem_cons.mp bare
        obtain ⟨inside, _, unquoted⟩ := continues_of_bare here
        rw [if_neg quoted, List.cons_append, readFrom, inside, unquoted, List.head?_cons,
          if_neg Bool.false_ne_true]
        by_cases sign : c = '#'
        · rw [if_pos sign, if_pos ⟨congrArg some sign, bare⟩, readFrom_comment later]
        · rw [if_neg sign, if_neg Bool.false_ne_true,
            if_neg fun comment => sign (Option.some.inj comment.1), readFrom_plain later]
          rfl

/-- What is read are the arguments, without those that are written as comments. -/
theorem readFrom_writeChars (arguments : List String) :
    readFrom .between (writeChars arguments) =
      (arguments.filter fun argument => ¬IsComment argument).map String.toList := by
  induction arguments with
  | nil => rfl
  | cons argument rest ih =>
      have line : writeChars (argument :: rest) =
          quoteChars argument.toList ++ '\n' :: writeChars rest := by
        unfold writeChars
        rw [List.flatMap_cons, List.append_assoc, List.singleton_append]
      rw [line, readFrom_line, ih]
      by_cases comment : IsComment argument
      · rw [if_pos comment, List.filter_cons_of_neg (by simpa using comment)]
      · rw [if_neg comment, List.filter_cons_of_pos (by simpa using comment), List.map_cons]

theorem read_write (options : CompilerOptions) :
    read (write options) = options.arguments.filter fun argument => ¬IsComment argument := by
  unfold read write
  rw [String.toList_ofList, readFrom_writeChars, List.map_map]
  apply List.map_id''
  intro argument
  exact String.ofList_toList

/-- Options are read back as they were written exactly if none of their arguments begins with a
number sign and holds no white space and no quote. -/
theorem read_write_iff (options : CompilerOptions) :
    read (write options) = options.arguments ↔
      ∀ argument ∈ options.arguments,
        ¬(argument.toList.head? = some '#' ∧
          ∀ c ∈ argument.toList, Text.isBlank c = false ∧ c ≠ '\'' ∧ c ≠ '"') := by
  rw [read_write, List.filter_eq_self]
  simp only [decide_eq_true_eq]
  rfl

/-- Quotes, a backslash before a letter and an empty value are read back; a bare number sign
hides its argument. -/
example : read (write ⟨[("--x", "it's \\n"), ("#y", ""), ("# z", "#\"")]⟩) =
    ["--x", "it's \\n", "", "# z", "#\""] := by
  decide +kernel

end ModulePlan.ArgumentFile
