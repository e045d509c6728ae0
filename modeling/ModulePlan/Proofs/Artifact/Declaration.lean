/-
Where a listing declares a module.

What begins a declaration is told by the text alone: blanks, perhaps `open`, the word `module`, a
name, perhaps a version, and a brace.  The first of the lines that begin so gives the module, and a
listing in which no line does gives none.
-/

import Mathlib.Data.List.DropRight
import Mathlib.Data.List.TakeWhile
import ModulePlan.Artifact.Listing
import ModulePlan.Proofs.Text.Blank
import ModulePlan.Proofs.Text.Fields

namespace ModulePlan.Listing

/-! ### Blanks and names -/

def AreBlank (cs : List Char) : Prop :=
  ∀ c ∈ cs, Text.isBlank c = true

def AreVisible (cs : List Char) : Prop :=
  ∀ c ∈ cs, Text.isBlank c = false

def AreNameChars (cs : List Char) : Prop :=
  ∀ c ∈ cs, isNameChar c = true

-- The characters of the text are tried, not all characters.
instance (cs : List Char) : Decidable (AreBlank cs) :=
  List.decidableBAll _ cs

instance (cs : List Char) : Decidable (AreVisible cs) :=
  List.decidableBAll _ cs

instance (cs : List Char) : Decidable (AreNameChars cs) :=
  List.decidableBAll _ cs

theorem isNameChar_of_isBlank {c : Char} (blank : Text.isBlank c = true) : isNameChar c = false :=
  Text.eq_false_of_isBlank (by decide +kernel) blank

theorem isBlank_of_isNameChar {c : Char} (plain : isNameChar c = true) :
    Text.isBlank c = false := by
  cases blank : Text.isBlank c with
  | false => rfl
  | true =>
      rw [isNameChar_of_isBlank blank] at plain
      cases plain

theorem areVisible_of_areNameChars {cs : List Char} (plain : AreNameChars cs) : AreVisible cs :=
  fun c within => isBlank_of_isNameChar (plain c within)

theorem not_mem_of_areVisible {cs : List Char} (visible : AreVisible cs) {c : Char}
    (blank : Text.isBlank c = true) : c ∉ cs := by
  intro within
  rw [visible c within] at blank
  cases blank

theorem areBlank_takeWhile (cs : List Char) : AreBlank (cs.takeWhile Text.isBlank) :=
  fun _ => List.mem_takeWhile_imp

theorem takeWhile_dropBlank (cs : List Char) : cs.takeWhile Text.isBlank ++ dropBlank cs = cs :=
  List.takeWhile_append_dropWhile

theorem dropBlank_append {indent : List Char} (blank : AreBlank indent) (rest : List Char) :
    dropBlank (indent ++ rest) = dropBlank rest :=
  List.dropWhile_append_of_pos blank

theorem dropBlank_cons {c : Char} (visible : Text.isBlank c = false) (rest : List Char) :
    dropBlank (c :: rest) = c :: rest :=
  List.dropWhile_cons_of_neg (Bool.eq_false_iff.mp visible)

theorem dropBlank_name {name : List Char} (some : name ≠ []) (plain : AreNameChars name)
    (rest : List Char) : dropBlank (name ++ rest) = name ++ rest := by
  cases name with
  | nil => exact absurd rfl some
  | cons c name => exact dropBlank_cons (isBlank_of_isNameChar (plain c List.mem_cons_self)) _

/-! ### Words -/

/-- A word is read where it stands in front and blanks come behind it. -/
theorem afterWord?_eq_some_iff {word cs after : List Char} :
    afterWord? word cs = some after ↔
      ∃ gap, gap ≠ [] ∧ AreBlank gap ∧ dropBlank after = after ∧ cs = word ++ (gap ++ after) := by
  constructor
  · intro read
    unfold afterWord? at read
    split at read
    · rename_i fits
      rw [Bool.and_eq_true, List.isPrefixOf_iff_prefix] at fits
      obtain ⟨⟨rest, rfl⟩, follows⟩ := fits
      rw [List.drop_left] at read follows
      cases read
      refine ⟨rest.takeWhile Text.isBlank, ?_, areBlank_takeWhile rest,
        List.dropWhile_idempotent Text.isBlank rest, ?_⟩
      · cases rest with
        | nil => cases follows
        | cons c rest =>
            rw [List.takeWhile_cons_of_pos (by simpa using follows)]
            exact List.cons_ne_nil _ _
      · rw [takeWhile_dropBlank]
    · cases read
  · intro given
    rcases given with ⟨gap, some, blank, begins, rfl⟩
    cases gap with
    | nil => exact absurd rfl some
    | cons c gap =>
        have fits : (word.isPrefixOf (word ++ (c :: gap ++ after)) &&
            ((word ++ (c :: gap ++ after)).drop word.length).head?.any Text.isBlank) = true := by
          rw [List.drop_left, List.isPrefixOf_iff_prefix.mpr (List.prefix_append _ _)]
          exact blank c List.mem_cons_self
        unfold afterWord?
        rw [if_pos fits, List.drop_left, dropBlank_append blank, begins]

theorem afterWord?_of_ne {c d : Char} (other : c ≠ d) (word rest : List Char) :
    afterWord? (c :: word) (d :: rest) = none := by
  unfold afterWord?
  rw [List.isPrefixOf_cons_cons, beq_eq_false_iff_ne.mpr other, Bool.false_and, Bool.false_and]
  rfl

/-! ### Versions and braces -/

/-- A version: an at sign and whatever is not blank, or nothing. -/
inductive IsVersion : List Char → Prop
  | none : IsVersion []
  | some {text : List Char} (visible : AreVisible text) : IsVersion ('@' :: text)

def isVisible (c : Char) : Bool :=
  !Text.isBlank c

theorem isVisible_of_areVisible {text : List Char} (visible : AreVisible text) :
    ∀ c ∈ text, isVisible c = true := by
  intro c within
  unfold isVisible
  rw [visible c within]
  rfl

theorem areVisible_takeWhile (cs : List Char) : AreVisible (cs.takeWhile isVisible) := by
  intro c within
  have shown := List.mem_takeWhile_imp within
  unfold isVisible at shown
  rwa [Bool.not_eq_true'] at shown

theorem head_dropBlank_iff {text : List Char} :
    (dropBlank text).head? = some '{' ↔ ∃ gap rest, AreBlank gap ∧ text = gap ++ '{' :: rest := by
  constructor
  · intro opens
    obtain ⟨rest, split⟩ := List.head?_eq_some_iff.mp opens
    refine ⟨text.takeWhile Text.isBlank, rest, areBlank_takeWhile text, ?_⟩
    rw [← split, takeWhile_dropBlank]
  · rintro ⟨gap, rest, blank, rfl⟩
    rw [dropBlank_append blank, dropBlank_cons rfl]
    rfl

theorem afterChar?_cons (c : Char) (rest : List Char) : afterChar? c (c :: rest) = some rest := by
  unfold afterChar?
  exact if_pos rfl

theorem opensBody_version (version : List Char) :
    opensBody ('@' :: version) = true ↔ '{' ∈ version.takeWhile isVisible ∨
      (dropBlank (version.drop (version.takeWhile isVisible).length)).head? = some '{' := by
  unfold opensBody
  rw [afterChar?_cons]
  simp only [Bool.or_eq_true, List.contains_iff_mem, decide_eq_true_eq]
  exact Iff.rfl

theorem opensBody_of_ne {cs : List Char} (unsigned : ∀ rest, cs ≠ '@' :: rest) :
    opensBody cs = true ↔ (dropBlank cs).head? = some '{' := by
  have none : afterChar? '@' cs = none := by
    cases cs with
    | nil => rfl
    | cons c rest =>
        unfold afterChar?
        exact if_neg fun same => unsigned rest (congrArg (List.cons · rest) same)
  unfold opensBody
  rw [none]
  exact decide_eq_true_iff

/-- A brace follows if it stands behind a version and blanks. -/
theorem opensBody_iff {cs : List Char} :
    opensBody cs = true ↔ ∃ version gap rest, IsVersion version ∧ AreBlank gap ∧
      cs = version ++ (gap ++ '{' :: rest) := by
  constructor
  · intro opens
    by_cases signed : ∃ version, cs = '@' :: version
    · obtain ⟨version, rfl⟩ := signed
      have cut := Text.takeWhile_append_drop isVisible version
      have visible := areVisible_takeWhile version
      rcases (opensBody_version version).mp opens with inside | behind
      · -- the brace is taken from the end of the version
        obtain ⟨text, more, split, _⟩ := List.eq_append_cons_of_mem inside
        rw [split] at visible cut
        refine ⟨'@' :: text, [], more ++ version.drop (text ++ '{' :: more).length,
          .some fun c within => visible c (List.mem_append_left _ within), nofun, ?_⟩
        rw [List.append_assoc, List.cons_append] at cut
        rw [List.nil_append, List.cons_append, cut]
      · obtain ⟨gap, rest, blank, split⟩ := head_dropBlank_iff.mp behind
        refine ⟨'@' :: _, gap, rest, .some visible, blank, ?_⟩
        rw [List.cons_append, ← split, cut]
    · have unsigned : ∀ rest, cs ≠ '@' :: rest := fun rest same => signed ⟨rest, same⟩
      obtain ⟨gap, rest, blank, split⟩ :=
        head_dropBlank_iff.mp ((opensBody_of_ne unsigned).mp opens)
      exact ⟨[], gap, rest, .none, blank, split⟩
  · rintro ⟨version, gap, rest, proper, blank, rfl⟩
    have brace := head_dropBlank_iff.mpr ⟨gap, rest, blank, rfl⟩
    cases proper with
    | none =>
        refine (opensBody_of_ne ?_).mpr brace
        intro more same
        rw [List.nil_append] at same
        cases gap with
        | nil => cases same
        | cons c gap =>
            rw [(List.cons.inj same).1] at blank
            cases blank '@' List.mem_cons_self
    | @some text visible =>
        have shown := isVisible_of_areVisible visible
        rw [List.cons_append, opensBody_version]
        cases gap with
        | nil =>
            left
            rw [List.nil_append, List.takeWhile_append_of_pos shown]
            exact List.mem_append_right _ List.mem_cons_self
        | cons c gap =>
            right
            have stops : isVisible c = false := by
              unfold isVisible
              rw [blank c List.mem_cons_self]
              rfl
            rw [List.cons_append, Text.takeWhile_run shown stops, List.drop_left]
            exact brace

/-! ### The beginning of a declaration -/

/-- Nothing, or the word `open` with blanks behind it. -/
inductive IsOpening : List Char → Prop
  | none : IsOpening []
  | some {gap : List Char} (some : gap ≠ []) (blank : AreBlank gap) :
      IsOpening ("open".toList ++ gap)

/-- A text that begins with the declaration of a module of this name. -/
inductive BeginsDeclaration (name : List Char) : List Char → Prop
  | intro {indent opening gap version space rest : List Char} (blank : AreBlank indent)
      (opens : IsOpening opening) (apart : gap ≠ []) (between : AreBlank gap) (some : name ≠ [])
      (plain : AreNameChars name) (proper : IsVersion version) (behind : AreBlank space) :
      BeginsDeclaration name (indent ++ (opening ++ ("module".toList ++
        (gap ++ (name ++ (version ++ (space ++ '{' :: rest)))))))

private theorem dropBlank_module (rest : List Char) :
    dropBlank ("module".toList ++ rest) = "module".toList ++ rest :=
  dropBlank_cons (by decide) _

theorem dropBlank_opening {opening : List Char} (opens : IsOpening opening) (rest : List Char) :
    dropBlank (opening ++ ("module".toList ++ rest)) = opening ++ ("module".toList ++ rest) := by
  cases opens with
  | none => exact dropBlank_module rest
  | some => exact dropBlank_cons (by decide) _

/-- The word `module` is read behind an opening. -/
theorem afterModule_iff {start rest : List Char} :
    afterWord? "module".toList ((afterWord? "open".toList start).getD start) = some rest ↔
      ∃ opening gap, IsOpening opening ∧ gap ≠ [] ∧ AreBlank gap ∧ dropBlank rest = rest ∧
        start = opening ++ ("module".toList ++ (gap ++ rest)) := by
  constructor
  · intro read
    obtain ⟨gap, apart, between, begins, split⟩ := afterWord?_eq_some_iff.mp read
    cases opens : afterWord? "open".toList start with
    | none =>
        rw [opens] at split
        exact ⟨[], gap, .none, apart, between, begins, split⟩
    | some behind =>
        rw [opens] at split
        obtain ⟨first, some, blank, _, whole⟩ := afterWord?_eq_some_iff.mp opens
        refine ⟨"open".toList ++ first, gap, .some some blank, apart, between, begins, ?_⟩
        rw [List.append_assoc, ← split]
        exact whole
  · rintro ⟨opening, gap, opens, apart, between, begins, rfl⟩
    have read : afterWord? "module".toList ("module".toList ++ (gap ++ rest)) = some rest :=
      afterWord?_eq_some_iff.mpr ⟨gap, apart, between, begins, rfl⟩
    cases opens with
    | none =>
        have closed : afterWord? "open".toList ("module".toList ++ (gap ++ rest)) = none :=
          afterWord?_of_ne (by decide) _ _
        rw [List.nil_append, closed]
        exact read
    | @some first some blank =>
        rw [List.append_assoc, afterWord?_eq_some_iff.mpr
          ⟨first, some, blank, dropBlank_module _, rfl⟩]
        exact read

/-- A name ends where a version, a blank or the brace follows. -/
theorem takeWhile_declaredName {name version space : List Char} (plain : AreNameChars name)
    (proper : IsVersion version) (behind : AreBlank space) (rest : List Char) :
    (name ++ (version ++ (space ++ '{' :: rest))).takeWhile isNameChar = name := by
  cases proper with
  | some => exact Text.takeWhile_run plain (by decide +kernel) _
  | none =>
      cases space with
      | nil => exact Text.takeWhile_run plain (by decide +kernel) _
      | cons c space =>
          exact Text.takeWhile_run plain (isNameChar_of_isBlank (behind c List.mem_cons_self)) _

theorem declaredHere?_eq_some_iff {cs name : List Char} :
    declaredHere? cs = some name ↔ BeginsDeclaration name cs := by
  constructor
  · intro found
    obtain ⟨rest, read, found⟩ := Option.bind_eq_some_iff.mp found
    obtain ⟨opening, gap, opens, apart, between, _, first⟩ := afterModule_iff.mp read
    obtain ⟨named, same⟩ := Option.ite_none_right_eq_some.mp found
    cases same
    rw [Bool.and_eq_true, decide_eq_true_eq, opensBody_iff] at named
    obtain ⟨some, version, space, more, proper, behind, body⟩ := named
    have cut := Text.takeWhile_append_drop isNameChar rest
    rw [body] at cut
    rw [← takeWhile_dropBlank cs, first]
    nth_rewrite 2 [← cut]
    exact .intro (areBlank_takeWhile cs) opens apart between some
      (fun _ => List.mem_takeWhile_imp) proper behind
  · rintro ⟨blank, opens, apart, between, some, plain, proper, behind⟩
    unfold declaredHere?
    rw [dropBlank_append blank, dropBlank_opening opens]
    refine Option.bind_eq_some_iff.mpr ⟨name ++ _, afterModule_iff.mpr
      ⟨_, _, opens, apart, between, dropBlank_name some plain _, rfl⟩, ?_⟩
    dsimp only
    rw [takeWhile_declaredName plain proper behind, List.drop_left,
      opensBody_iff.mpr ⟨_, _, _, proper, behind, rfl⟩, Bool.and_true]
    exact if_pos (decide_eq_true some)

theorem declaredHere?_eq_none_iff {cs : List Char} :
    declaredHere? cs = none ↔ ∀ name, ¬ BeginsDeclaration name cs := by
  rw [Option.eq_none_iff_forall_ne_some]
  exact forall_congr' fun name => not_congr declaredHere?_eq_some_iff

theorem declaredHere?_of_ne {c : Char} (visible : Text.isBlank c = false) (unopened : c ≠ 'o')
    (other : c ≠ 'm') (rest : List Char) : declaredHere? (c :: rest) = none := by
  have closed : afterWord? "open".toList (c :: rest) = none :=
    afterWord?_of_ne (Ne.symm unopened) _ rest
  have wordless : afterWord? "module".toList (c :: rest) = none :=
    afterWord?_of_ne (Ne.symm other) _ rest
  unfold declaredHere?
  rw [dropBlank_cons visible]
  dsimp only
  rw [closed, Option.getD_none, wordless]
  rfl

/-! ### The first declaration -/

/-- A line begins behind this text: there is none, or it ends in a line feed. -/
def BeginsLine (before : List Char) : Prop :=
  ∀ c ∈ before.getLast?, c = '\n'

theorem beginsLine_cons {c : Char} {before : List Char} :
    BeginsLine (c :: before) ↔ (before = [] → c = '\n') ∧ BeginsLine before := by
  unfold BeginsLine
  cases before with
  | nil => simp
  | cons d before => simp [List.getLast?_cons_cons]

theorem declared?_of_none {lineStart : Bool} {c : Char} {rest : List Char}
    (none : lineStart = true → declaredHere? (c :: rest) = none) :
    declared? lineStart (c :: rest) = declared? (c = '\n') rest := by
  have nothing : (if lineStart then declaredHere? (c :: rest) else Option.none) = Option.none := by
    split
    · exact none ‹_›
    · rfl
  rw [declared?, nothing]

theorem declared?_false_cons (c : Char) (rest : List Char) :
    declared? false (c :: rest) = declared? (c = '\n') rest :=
  declared?_of_none nofun

theorem declared?_of_some {cs name : List Char} (found : declaredHere? cs = some name) :
    declared? true cs = some name := by
  cases cs with
  | nil => cases found
  | cons c rest => rw [declared?, if_pos rfl, found]

theorem declared?_cons_eq_none_iff {lineStart : Bool} {c : Char} {rest : List Char} :
    declared? lineStart (c :: rest) = none ↔
      (lineStart = true → declaredHere? (c :: rest) = none) ∧ declared? (c = '\n') rest = none := by
  constructor
  · intro nothing
    have here : lineStart = true → declaredHere? (c :: rest) = none := by
      rintro rfl
      cases found : declaredHere? (c :: rest) with
      | none => rfl
      | some name =>
          rw [declared?_of_some found] at nothing
          cases nothing
    rw [declared?_of_none here] at nothing
    exact ⟨here, nothing⟩
  · rintro ⟨here, later⟩
    rw [declared?_of_none here, later]

/-- Nothing is declared if no line begins with a declaration, and only then. -/
theorem declared?_eq_none_iff {lineStart : Bool} {cs : List Char} :
    declared? lineStart cs = none ↔
      ∀ before rest, cs = before ++ rest → (before = [] → lineStart = true) → BeginsLine before →
        ∀ name, ¬ BeginsDeclaration name rest := by
  induction cs generalizing lineStart with
  | nil =>
      refine iff_of_true rfl fun before rest split _ _ => ?_
      rw [(List.append_eq_nil_iff.mp split.symm).2]
      exact declaredHere?_eq_none_iff.mp rfl
  | cons c cs ih =>
      rw [declared?_cons_eq_none_iff, ih]
      constructor
      · rintro ⟨here, later⟩ before rest split starts line
        cases before with
        | nil =>
            rw [List.nil_append] at split
            rw [← split]
            exact declaredHere?_eq_none_iff.mp (here (starts rfl))
        | cons d before =>
            obtain ⟨rfl, tail⟩ := List.cons.inj split
            obtain ⟨fed, line⟩ := beginsLine_cons.mp line
            exact later before rest tail (fun nil => decide_eq_true (fed nil)) line
      · intro nowhere
        constructor
        · intro starts
          exact declaredHere?_eq_none_iff.mpr (nowhere [] (c :: cs) rfl (fun _ => starts) nofun)
        · intro before rest split starts line
          have fed : before = [] → c = '\n' := fun nil => of_decide_eq_true (starts nil)
          exact nowhere (c :: before) rest (congrArg (List.cons c) split) nofun
            (beginsLine_cons.mpr ⟨fed, line⟩)

/-- A text in which some line begins with the declaration of a module. -/
def HasDeclaration (cs : List Char) : Prop :=
  ∃ before rest name, cs = before ++ rest ∧ BeginsLine before ∧ BeginsDeclaration name rest

theorem declared?_eq_none_iff_not_hasDeclaration {cs : List Char} :
    declared? true cs = none ↔ ¬ HasDeclaration cs := by
  rw [declared?_eq_none_iff]
  constructor
  · rintro nowhere ⟨before, rest, name, split, line, begins⟩
    exact nowhere before rest split (fun _ => rfl) line name begins
  · intro none before rest split _ line name begins
    exact none ⟨before, rest, name, split, line, begins⟩

/-! ### Lines without a declaration -/

theorem declared?_inLine {line : List Char} (single : '\n' ∉ line) (rest : List Char) :
    declared? false (line ++ '\n' :: rest) = declared? true rest := by
  induction line with
  | nil => exact declared?_false_cons '\n' rest
  | cons c line ih =>
      have other : c ≠ '\n' := Ne.symm (List.ne_of_not_mem_cons single)
      rw [List.cons_append, declared?_false_cons, decide_eq_false other,
        ih (List.not_mem_of_not_mem_cons single)]

/-- A line that declares nothing is passed over. -/
theorem declared?_line {line : List Char} (single : '\n' ∉ line) {rest : List Char}
    (nothing : declaredHere? (line ++ '\n' :: rest) = none) :
    declared? true (line ++ '\n' :: rest) = declared? true rest := by
  rw [← declared?_inLine single rest]
  cases cut : line ++ '\n' :: rest with
  | nil => rfl
  | cons c more =>
      rw [cut] at nothing
      rw [declared?_of_none fun _ => nothing, declared?_false_cons]

end ModulePlan.Listing
