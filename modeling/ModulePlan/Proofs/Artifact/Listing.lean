/-
Listings of modules, written and read again.

A listing declares one module.  Behind the brace stand lines that require a module and clauses of
other kinds, whose lists may go on over further lines.  Reading a listing gives the name that is
declared and those that are required, whatever the names, the modifiers and the version look like.
-/

import ModulePlan.Proofs.Artifact.Declaration
import ModulePlan.Proofs.DistinctList

namespace ModulePlan.Listing

/-! ### Written listings -/

structure Blanks where
  chars : List Char
  blank : AreBlank chars

structure LineText where
  chars : List Char
  single : '\n' ∉ chars

structure Name where
  chars : List Char
  some : chars ≠ []
  plain : AreNameChars chars

structure Version where
  chars : List Char
  visible : AreVisible chars

theorem Name.not_mem_chars (name : Name) {c : Char} (blank : Text.isBlank c = true) :
    c ∉ name.chars :=
  not_mem_of_areVisible (areVisible_of_areNameChars name.plain) blank

inductive Modifier where
  | transitive
  | static
  | mandated
  | synthetic

def Modifier.word : Modifier → List Char
  | .transitive => "transitive".toList
  | .static => "static".toList
  | .mandated => "mandated".toList
  | .synthetic => "synthetic".toList

structure Requirement where
  indent : Blanks
  modifiers : List Modifier
  name : Name

inductive ClauseKind where
  | exports
  | opens
  | uses
  | provides

def ClauseKind.keyword : ClauseKind → List Char
  | .exports => "exports".toList
  | .opens => "opens".toList
  | .uses => "uses".toList
  | .provides => "provides".toList

/-- A further line of a list: a name, a comma or a semicolon, and whatever else is on the line. -/
structure Continuation where
  indent : Blanks
  name : Name
  isLast : Bool
  behind : LineText

structure Clause where
  indent : Blanks
  kind : ClauseKind
  first : LineText
  further : List Continuation

inductive Line where
  | requires (requirement : Requirement)
  | other (clause : Clause)

/-- A listing: the line that tells the source, the declaration, the lines of the body, and the
blanks behind the closing brace. -/
structure Written where
  source : Option LineText
  isOpen : Bool
  name : Name
  version : Option Version
  body : List Line
  ending : Blanks

/-- Modifiers with a space behind each, and the name. -/
def requiredChars (modifiers : List Modifier) (name : Name) : List Char :=
  modifiers.flatMap (fun modifier => modifier.word ++ [' ']) ++ name.chars

def Requirement.chars (requirement : Requirement) : List Char :=
  requirement.indent.chars ++ ("requires".toList ++
    (' ' :: requiredChars requirement.modifiers requirement.name ++ [';', '\n']))

def Continuation.mark (continuation : Continuation) : Char :=
  if continuation.isLast then ';' else ','

def Continuation.chars (continuation : Continuation) : List Char :=
  continuation.indent.chars ++ (continuation.name.chars ++
    (continuation.mark :: continuation.behind.chars ++ ['\n']))

def Clause.chars (clause : Clause) : List Char :=
  clause.indent.chars ++ (clause.kind.keyword ++ clause.first.chars ++ ['\n']) ++
    clause.further.flatMap Continuation.chars

def Line.chars : Line → List Char
  | .requires requirement => requirement.chars
  | .other clause => clause.chars

def Line.required? : Line → Option Name
  | .requires requirement => some requirement.name
  | .other _ => none

namespace Written

def sourceChars (written : Written) : List Char :=
  written.source.elim [] fun source => "Compiled from ".toList ++ source.chars ++ ['\n']

def openingChars (written : Written) : List Char :=
  if written.isOpen then "open".toList ++ [' '] else []

def versionChars (written : Written) : List Char :=
  written.version.elim [] fun version => '@' :: version.chars

/-- The line of the declaration. -/
def header (written : Written) : List Char :=
  written.openingChars ++ ("module".toList ++ ([' '] ++ (written.name.chars ++
    (written.versionChars ++ ([' '] ++ ['{'])))))

def chars (written : Written) : List Char :=
  written.sourceChars ++ (written.header ++ '\n' ::
    (written.body.flatMap Line.chars ++ '}' :: written.ending.chars))

/-- The required names, in order and with those that occur again. -/
def required (written : Written) : List Name :=
  written.body.filterMap Line.required?

end Written

/-! ### One requirement -/

theorem modifiers_contains (modifier : Modifier) : modifiers.contains modifier.word = true := by
  cases modifier <;> decide

theorem areNameChars_word (modifier : Modifier) : AreNameChars modifier.word := by
  cases modifier <;> decide +kernel

theorem word_ne_nil (modifier : Modifier) : modifier.word ≠ [] := by
  cases modifier <;> decide

theorem dropBlank_requiredChars (modifiers : List Modifier) (name : Name) (rest : List Char) :
    dropBlank (requiredChars modifiers name ++ rest) = requiredChars modifiers name ++ rest := by
  cases modifiers with
  | nil => exact dropBlank_name name.some name.plain rest
  | cons modifier modifiers =>
      unfold requiredChars
      rw [List.flatMap_cons, List.append_assoc, List.append_assoc, List.append_assoc]
      exact dropBlank_name (word_ne_nil modifier) (areNameChars_word modifier) _

/-- The name is read behind the modifiers, also where it is that of a modifier. -/
theorem requiredName?_requiredChars (latest : List Char) (modifiers : List Modifier) (name : Name)
    (rest : List Char) :
    requiredName? latest (requiredChars modifiers name ++ ';' :: rest) =
      some (name.chars, rest) := by
  induction modifiers generalizing latest with
  | nil =>
      have word : (name.chars ++ ';' :: rest).takeWhile isNameChar = name.chars :=
        Text.takeWhile_run name.plain (by decide +kernel) rest
      change requiredName? latest (name.chars ++ ';' :: rest) = _
      -- a semicolon follows and no blank, so a name that is a modifier is the name all the same
      rw [requiredName?, word, List.drop_left, if_neg name.some, if_neg]
      · rw [dropBlank_cons (by decide), afterChar?_cons]
        rfl
      · rw [Bool.and_eq_true]
        rintro ⟨_, blank⟩
        cases blank
  | cons modifier modifiers ih =>
      have split : requiredChars (modifier :: modifiers) name ++ ';' :: rest =
          modifier.word ++ (' ' :: (requiredChars modifiers name ++ ';' :: rest)) := by
        unfold requiredChars
        simp only [List.flatMap_cons, List.append_assoc, List.cons_append, List.nil_append]
      have word : (modifier.word ++ ' ' :: (requiredChars modifiers name ++ ';' :: rest)).takeWhile
          isNameChar = modifier.word :=
        Text.takeWhile_run (areNameChars_word modifier) (by decide +kernel) _
      rw [split, requiredName?, word, List.drop_left, if_neg (word_ne_nil modifier), if_pos]
      · have next : dropBlank (' ' :: (requiredChars modifiers name ++ ';' :: rest)) =
            requiredChars modifiers name ++ ';' :: rest := by
          rw [← List.singleton_append, dropBlank_append (by decide), dropBlank_requiredChars]
        rw [next]
        exact ih modifier.word
      · rw [modifiers_contains]
        rfl

theorem requiredHere?_append {indent : List Char} (blank : AreBlank indent) (rest : List Char) :
    requiredHere? (indent ++ rest) = requiredHere? rest := by
  unfold requiredHere?
  rw [dropBlank_append blank]

theorem requiredHere?_of_ne {c : Char} (visible : Text.isBlank c = false) (other : c ≠ 'r')
    (rest : List Char) : requiredHere? (c :: rest) = none := by
  unfold requiredHere?
  rw [dropBlank_cons visible]
  have wordless : afterWord? "requires".toList (c :: rest) = none :=
    afterWord?_of_ne (Ne.symm other) _ rest
  rw [wordless]
  rfl

theorem requiredHere?_requirement (requirement : Requirement) (rest : List Char) :
    requiredHere? (requirement.chars ++ rest) = some (requirement.name.chars, '\n' :: rest) := by
  have split : requirement.chars ++ rest =
      requirement.indent.chars ++ ("requires".toList ++ ([' '] ++
        (requiredChars requirement.modifiers requirement.name ++ ';' :: '\n' :: rest))) := by
    unfold Requirement.chars
    simp only [List.append_assoc, List.cons_append, List.nil_append]
  rw [split, requiredHere?_append requirement.indent.blank]
  unfold requiredHere?
  have word : AreNameChars "requires".toList := by decide +kernel
  rw [dropBlank_name (by decide) word]
  refine Option.bind_eq_some_iff.mpr ⟨_, afterWord?_eq_some_iff.mpr ⟨[' '], by decide, by decide,
    dropBlank_requiredChars _ _ _, rfl⟩, ?_⟩
  exact requiredName?_requiredChars [] _ _ _

/-- A continued list requires nothing, not even where the word `requires` is a name in it: a comma
or a semicolon follows, not a blank. -/
theorem requiredHere?_continuation (continuation : Continuation) (rest : List Char) :
    requiredHere? (continuation.name.chars ++ continuation.mark :: rest) = none := by
  have mark : isNameChar continuation.mark = false ∧ Text.isBlank continuation.mark = false := by
    unfold Continuation.mark
    cases continuation.isLast <;> decide +kernel
  unfold requiredHere?
  rw [dropBlank_name continuation.name.some continuation.name.plain]
  cases read : afterWord? "requires".toList
      (continuation.name.chars ++ continuation.mark :: rest) with
  | none => rfl
  | some after =>
      obtain ⟨gap, some, blank, _, split⟩ := afterWord?_eq_some_iff.mp read
      cases gap with
      | nil => exact absurd rfl some
      | cons c gap =>
          -- both readings end where the name ends, so the mark would be the blank
          have space := blank c List.mem_cons_self
          have first := Text.takeWhile_run continuation.name.plain mark.1 rest
          have word : AreNameChars "requires".toList := by decide +kernel
          have second := Text.takeWhile_run word (isNameChar_of_isBlank space) (gap ++ after)
          rw [split, List.cons_append, second] at first
          rw [← first] at split
          have same := (List.cons.inj (List.append_cancel_left split)).1
          rw [← same, mark.2] at space
          cases space

/-! ### The requirements of lines -/

theorem requirements_of_none {lineStart : Bool} {c : Char} {rest : List Char}
    (nothing : lineStart = true → requiredHere? (c :: rest) = none) :
    requirements lineStart (c :: rest) = requirements (c = '\n') rest := by
  have here : (if lineStart then requiredHere? (c :: rest) else none) = none := by
    split
    · exact nothing ‹_›
    · rfl
  rw [requirements]
  split
  · rename_i found
    rw [here] at found
    cases found
  · rfl

theorem requirements_of_some {cs name after : List Char}
    (found : requiredHere? cs = some (name, after)) :
    requirements true cs = name :: requirements false after := by
  cases cs with
  | nil => cases found
  | cons c rest =>
      rw [requirements]
      split
      · rename_i here
        rw [if_pos rfl, found] at here
        cases here
        rfl
      · rename_i here
        rw [if_pos rfl, found] at here
        cases here

theorem requirements_false_cons (c : Char) (rest : List Char) :
    requirements false (c :: rest) = requirements (c = '\n') rest :=
  requirements_of_none nofun

theorem requirements_inLine {line : List Char} (single : '\n' ∉ line) (rest : List Char) :
    requirements false (line ++ '\n' :: rest) = requirements true rest := by
  induction line with
  | nil => exact requirements_false_cons '\n' rest
  | cons c line ih =>
      have other : c ≠ '\n' := Ne.symm (List.ne_of_not_mem_cons single)
      rw [List.cons_append, requirements_false_cons, decide_eq_false other,
        ih (List.not_mem_of_not_mem_cons single)]

/-- A line that requires nothing is passed over. -/
theorem requirements_line {line : List Char} (single : '\n' ∉ line) {rest : List Char}
    (nothing : requiredHere? (line ++ '\n' :: rest) = none) (lineStart : Bool) :
    requirements lineStart (line ++ '\n' :: rest) = requirements true rest := by
  rw [← requirements_inLine single rest]
  cases cut : line ++ '\n' :: rest with
  | nil => exact absurd cut (List.append_ne_nil_of_right_ne_nil line (List.cons_ne_nil _ _))
  | cons c more =>
      rw [cut] at nothing
      rw [requirements_of_none fun _ => nothing, requirements_false_cons]

/-- So are the blanks in front of it, on whichever lines these are. -/
theorem requirements_indentedLine {indent line : List Char} (blank : AreBlank indent)
    (single : '\n' ∉ line) {rest : List Char}
    (nothing : requiredHere? (line ++ '\n' :: rest) = none) (lineStart : Bool) :
    requirements lineStart (indent ++ (line ++ '\n' :: rest)) = requirements true rest := by
  induction indent generalizing lineStart with
  | nil => exact requirements_line single nothing lineStart
  | cons c indent ih =>
      have none : requiredHere? (c :: (indent ++ (line ++ '\n' :: rest))) = none := by
        rw [← List.cons_append, requiredHere?_append blank, nothing]
      rw [List.cons_append, requirements_of_none fun _ => none]
      exact ih (fun d within => blank d (List.mem_cons_of_mem c within)) _

theorem requirements_of_areBlank {cs : List Char} (blank : AreBlank cs) (lineStart : Bool) :
    requirements lineStart cs = [] := by
  induction cs generalizing lineStart with
  | nil => rw [requirements]
  | cons c cs ih =>
      have none : requiredHere? (c :: cs) = none := by
        rw [← List.append_nil (c :: cs), requiredHere?_append blank]
        rfl
      rw [requirements_of_none fun _ => none]
      exact ih (fun d within => blank d (List.mem_cons_of_mem c within)) _

theorem requirements_further (further : List Continuation) (rest : List Char) :
    requirements true (further.flatMap Continuation.chars ++ rest) = requirements true rest := by
  induction further with
  | nil => rfl
  | cons continuation further ih =>
      have split : (continuation :: further).flatMap Continuation.chars ++ rest =
          continuation.indent.chars ++
            ((continuation.name.chars ++ continuation.mark :: continuation.behind.chars) ++
              '\n' :: (further.flatMap Continuation.chars ++ rest)) := by
        unfold Continuation.chars
        simp only [List.flatMap_cons, List.append_assoc, List.cons_append, List.nil_append]
      have mark : '\n' ≠ continuation.mark := by
        unfold Continuation.mark
        cases continuation.isLast <;> decide
      have single :
          '\n' ∉ continuation.name.chars ++ continuation.mark :: continuation.behind.chars := by
        rw [List.mem_append, not_or]
        exact ⟨continuation.name.not_mem_chars (by decide),
          List.not_mem_cons_of_ne_of_not_mem mark continuation.behind.single⟩
      rw [split, requirements_indentedLine continuation.indent.blank single, ih]
      rw [List.append_assoc, List.cons_append]
      exact requiredHere?_continuation continuation _

theorem requirements_clause (clause : Clause) (rest : List Char) :
    requirements true (clause.chars ++ rest) = requirements true rest := by
  have split : clause.chars ++ rest = clause.indent.chars ++
      ((clause.kind.keyword ++ clause.first.chars) ++
        '\n' :: (clause.further.flatMap Continuation.chars ++ rest)) := by
    unfold Clause.chars
    simp only [List.append_assoc, List.cons_append, List.nil_append]
  have single : '\n' ∉ clause.kind.keyword ++ clause.first.chars := by
    rw [List.mem_append, not_or]
    refine ⟨?_, clause.first.single⟩
    cases clause.kind <;> decide
  rw [split, requirements_indentedLine clause.indent.blank single, requirements_further]
  cases clause.kind <;> exact requiredHere?_of_ne (by decide) (by decide) _

/-- A line of the body requires what it says, and the lines behind it are read as if it were not
there. -/
theorem requirements_bodyLine (line : Line) (rest : List Char) :
    requirements true (line.chars ++ rest) =
      (line.required?.map Name.chars).toList ++ requirements true rest := by
  cases line with
  | requires requirement =>
      have read := requirements_of_some (requiredHere?_requirement requirement rest)
      rw [requirements_false_cons] at read
      exact read
  | other clause => exact requirements_clause clause rest

theorem requirements_body (body : List Line) (rest : List Char) :
    requirements true (body.flatMap Line.chars ++ rest) =
      (body.filterMap Line.required?).map Name.chars ++ requirements true rest := by
  induction body with
  | nil => rfl
  | cons line body ih =>
      rw [List.flatMap_cons, List.append_assoc, requirements_bodyLine, ih, List.filterMap_cons]
      cases line.required? with
      | none => rfl
      | some name => rfl

theorem requirements_closing (ending : Blanks) :
    requirements true ('}' :: ending.chars) = [] := by
  rw [requirements_of_none fun _ => requiredHere?_of_ne (by decide) (by decide) _]
  exact requirements_of_areBlank ending.blank _

/-! ### The whole listing -/

namespace Written

variable (written : Written)

theorem isOpening_openingChars : IsOpening written.openingChars := by
  unfold openingChars
  cases written.isOpen with
  | false => exact .none
  | true => exact .some (by decide) (by decide)

theorem isVersion_versionChars : IsVersion written.versionChars := by
  unfold versionChars
  cases written.version with
  | none => exact .none
  | some version => exact .some version.visible

theorem beginsDeclaration_header (rest : List Char) :
    BeginsDeclaration written.name.chars (written.header ++ rest) := by
  have split : written.header ++ rest = [] ++ (written.openingChars ++ ("module".toList ++
      ([' '] ++ (written.name.chars ++ (written.versionChars ++ ([' '] ++ '{' :: rest)))))) := by
    unfold header
    simp only [List.append_assoc, List.cons_append, List.nil_append]
  rw [split]
  exact .intro (by decide) written.isOpening_openingChars (by decide) (by decide)
    written.name.some written.name.plain written.isVersion_versionChars (by decide)

theorem newline_not_mem_header : '\n' ∉ written.header := by
  have opening : '\n' ∉ written.openingChars := by
    unfold openingChars
    cases written.isOpen <;> decide
  have version : '\n' ∉ written.versionChars := by
    unfold versionChars
    cases written.version with
    | none => exact List.not_mem_nil
    | some version =>
        exact List.not_mem_cons_of_ne_of_not_mem (by decide)
          (not_mem_of_areVisible version.visible (by decide))
  have name := written.name.not_mem_chars (c := '\n') (by decide)
  unfold header
  simp only [List.mem_append, not_or]
  exact ⟨opening, by decide, by decide, name, version, by decide, by decide⟩

theorem requiredHere?_header (rest : List Char) :
    requiredHere? (written.header ++ rest) = none := by
  unfold header openingChars
  cases written.isOpen <;> exact requiredHere?_of_ne (by decide) (by decide) _

/-- The line that tells the source neither declares nor requires anything. -/
theorem read_source (rest : List Char) :
    declared? true (written.sourceChars ++ rest) = declared? true rest ∧
      requirements true (written.sourceChars ++ rest) = requirements true rest := by
  unfold sourceChars
  cases written.source with
  | none => exact ⟨rfl, rfl⟩
  | some source =>
      have single : '\n' ∉ "Compiled from ".toList ++ source.chars := by
        rw [List.mem_append, not_or]
        exact ⟨by decide, source.single⟩
      rw [Option.elim_some, List.append_assoc, List.singleton_append]
      constructor
      · exact declared?_line single (declaredHere?_of_ne (by decide) (by decide) (by decide) _)
      · exact requirements_line single (requiredHere?_of_ne (by decide) (by decide) _) true

theorem declared?_chars : declared? true written.chars = some written.name.chars := by
  unfold chars
  rw [(written.read_source _).1]
  exact declared?_of_some (declaredHere?_eq_some_iff.mpr (written.beginsDeclaration_header _))

theorem requirements_chars :
    requirements true written.chars = written.required.map Name.chars := by
  unfold chars
  rw [(written.read_source _).2,
    requirements_line written.newline_not_mem_header (written.requiredHere?_header _),
    requirements_body, requirements_closing, List.append_nil]
  rfl

end Written

theorem descriptor?_of_declared {text : String} {name : List Char}
    (declared : declared? true text.toList = some name) :
    descriptor? text = some
      { name := String.ofList name
        requires := ((requirements true text.toList).map String.ofList).eraseDups } := by
  rw [← DistinctList.toList_ofList]
  exact Option.bind_eq_some_iff.mpr ⟨name, declared, rfl⟩

theorem descriptor?_eq_none_iff {text : String} :
    descriptor? text = none ↔ ¬ HasDeclaration text.toList := by
  rw [← declared?_eq_none_iff_not_hasDeclaration]
  constructor
  · intro nothing
    cases declared : declared? true text.toList with
    | none => rfl
    | some name =>
        rw [descriptor?_of_declared declared] at nothing
        cases nothing
  · intro nothing
    unfold descriptor?
    rw [nothing]
    rfl

/-- Reading undoes writing: a written listing gives its name and the names it requires, each where
it first occurs.  A text gives nothing where no line begins with a declaration, and only there. -/
theorem descriptor?_exact :
    (∀ written : Written, descriptor? (String.ofList written.chars) = some
      { name := String.ofList written.name.chars
        requires := (written.required.map fun name => String.ofList name.chars).eraseDups
        automatic := false }) ∧
    ∀ text : String, descriptor? text = none ↔ ¬ HasDeclaration text.toList := by
  refine ⟨fun written => ?_, fun text => descriptor?_eq_none_iff⟩
  have declared :
      declared? true (String.ofList written.chars).toList = some written.name.chars := by
    rw [String.toList_ofList, written.declared?_chars]
  rw [descriptor?_of_declared declared, String.toList_ofList, written.requirements_chars,
    List.map_map]
  rfl

/-- A listing of a module that requires one named like a modifier and exports to one named
`requires`. -/
example :
    Written.chars
      { source := some ⟨"module-info.java".toList, by decide⟩
        isOpen := true
        name := ⟨"a.b".toList, by decide, by decide +kernel⟩
        version := some ⟨"1\x7b@".toList, by decide⟩
        body :=
          [.requires ⟨⟨"  ".toList, by decide⟩, [.static, .transitive],
            ⟨"static".toList, by decide, by decide +kernel⟩⟩,
          .other ⟨⟨"  ".toList, by decide⟩, .exports, ⟨" p to".toList, by decide⟩,
            [⟨⟨"    ".toList, by decide⟩,
              ⟨"requires".toList, by decide, by decide +kernel⟩, true, ⟨[], by decide⟩⟩]⟩]
        ending := ⟨['\n'], by decide⟩ } =
      ("Compiled from module-info.java\nopen module a.b@1\x7b@ \x7b\n" ++
        "  requires static transitive static;\n  exports p to\n    requires;\n\x7d\n").toList := by
  decide +kernel

end ModulePlan.Listing
