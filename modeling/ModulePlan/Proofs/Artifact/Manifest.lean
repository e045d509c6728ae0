/-
Manifests that are written and read again.

An attribute is written on a line that may be folded anywhere behind its first character.  Reading
joins the folded parts, keeps apart the lines that are not folded, and goes no further than the
first empty line.
-/

import ModulePlan.Artifact.Manifest
import ModulePlan.Proofs.Text.Fields

namespace ModulePlan.Manifest

/-! ### Written manifests -/

inductive LineEnd where
  | feed
  | returnAndFeed

def LineEnd.chars : LineEnd → List Char
  | .feed => ['\n']
  | .returnAndFeed => ['\r', '\n']

/-- An attribute and how its line is written: the part before the first fold, the line end of each
fold with the part behind it, and the end of the line. -/
structure Entry where
  name : List Char
  value : List Char
  head : List Char
  folds : List (LineEnd × List Char)
  ending : LineEnd

namespace Entry

def line (entry : Entry) : List Char :=
  entry.name ++ ':' :: ' ' :: entry.value

def foldChars (folds : List (LineEnd × List Char)) : List Char :=
  folds.flatMap fun fold => fold.1.chars ++ ' ' :: fold.2

def chars (entry : Entry) : List Char :=
  entry.head ++ (foldChars entry.folds ++ entry.ending.chars)

structure IsProper (entry : Entry) : Prop where
  single : ∀ c ∈ entry.name ++ entry.value, Text.isLineEnd c = false
  colon : ':' ∉ entry.name
  begins : entry.name.head? ≠ some ' '
  head : entry.head ≠ []
  whole : entry.head ++ entry.folds.flatMap Prod.snd = entry.line

end Entry

/-- What may come behind the attributes of the main section. -/
inductive EndsSection : List Char → Prop
  | nothing : EndsSection []
  | emptyLine {lineEnd : LineEnd} {further : List Char} (begins : further.head? ≠ some ' ') :
      EndsSection (lineEnd.chars ++ further)

/-! ### Unfolding -/

theorem unfold_cons {c : Char} (single : Text.isLineEnd c = false) (rest : List Char) :
    unfold (c :: rest) = c :: unfold rest := by
  rw [unfold]
  · rintro _ rfl
    cases single
  · rintro _ rfl
    cases single

theorem unfold_append {cs : List Char} (single : ∀ c ∈ cs, Text.isLineEnd c = false)
    (rest : List Char) : unfold (cs ++ rest) = cs ++ unfold rest := by
  induction cs with
  | nil => rfl
  | cons c cs ih =>
      obtain ⟨here, later⟩ := List.forall_mem_cons.mp single
      rw [List.cons_append, unfold_cons here, ih later, List.cons_append]

theorem unfold_fold (lineEnd : LineEnd) (rest : List Char) :
    unfold (lineEnd.chars ++ ' ' :: rest) = unfold rest := by
  cases lineEnd <;> rfl

private theorem unfold_feed {rest : List Char} (begins : rest.head? ≠ some ' ') :
    unfold ('\n' :: rest) = '\n' :: unfold rest := by
  rw [unfold]
  · rintro _ ⟨⟩
  · rintro _ _ rfl
    exact begins rfl

/-- A line end that no space follows stays. -/
theorem unfold_lineEnd (lineEnd : LineEnd) {rest : List Char} (begins : rest.head? ≠ some ' ') :
    unfold (lineEnd.chars ++ rest) = lineEnd.chars ++ unfold rest := by
  cases lineEnd with
  | feed => exact unfold_feed begins
  | returnAndFeed =>
      change unfold ('\r' :: '\n' :: rest) = '\r' :: '\n' :: unfold rest
      rw [unfold, unfold_feed begins]
      · rintro _ _ ⟨⟩
        exact begins rfl
      · rintro _ ⟨⟩

/-- The parts of a folded line are joined. -/
theorem unfold_folds {folds : List (LineEnd × List Char)}
    (single : ∀ c ∈ folds.flatMap Prod.snd, Text.isLineEnd c = false) (rest : List Char) :
    unfold (Entry.foldChars folds ++ rest) = folds.flatMap Prod.snd ++ unfold rest := by
  induction folds with
  | nil => rfl
  | cons fold folds ih =>
      unfold Entry.foldChars at ih ⊢
      rw [List.flatMap_cons] at single ⊢
      rw [List.forall_mem_append] at single
      rw [List.append_assoc, List.append_assoc, List.cons_append, unfold_fold,
        unfold_append single.1, ih single.2, List.flatMap_cons, List.append_assoc]

namespace Entry

variable {entry : Entry}

theorem IsProper.single_line (proper : entry.IsProper) :
    ∀ c ∈ entry.line, Text.isLineEnd c = false := by
  have parts := List.forall_mem_append.mp proper.single
  refine List.forall_mem_append.mpr ⟨parts.1, ?_⟩
  exact List.forall_mem_cons.mpr ⟨rfl, List.forall_mem_cons.mpr ⟨rfl, parts.2⟩⟩

/-- Neither the line nor the text that it is written as begins with a space. -/
theorem IsProper.head?_chars (proper : entry.IsProper) (rest : List Char) :
    (entry.chars ++ rest).head? ≠ some ' ' := by
  have same : (entry.chars ++ rest).head? = entry.line.head? := by
    rw [← proper.whole]
    unfold chars
    cases split : entry.head with
    | nil => exact absurd split proper.head
    | cons c cs => rfl
  rw [same]
  unfold line
  intro begins
  apply proper.begins
  cases split : entry.name with
  | nil =>
      rw [split] at begins
      cases begins
  | cons c cs =>
      rw [split] at begins
      exact begins

theorem unfold_chars (proper : entry.IsProper) {rest : List Char}
    (begins : rest.head? ≠ some ' ') :
    unfold (entry.chars ++ rest) = entry.line ++ (entry.ending.chars ++ unfold rest) := by
  have single := proper.single_line
  rw [← proper.whole, List.forall_mem_append] at single
  unfold chars
  rw [List.append_assoc, unfold_append single.1, List.append_assoc, unfold_folds single.2,
    unfold_lineEnd entry.ending begins, ← List.append_assoc, proper.whole]

end Entry

/-! ### Lines -/

theorem splitLines_lineEnd (lineEnd : LineEnd) (rest : List Char) :
    Text.splitLines (lineEnd.chars ++ rest) = [] :: Text.splitLines rest := by
  cases lineEnd with
  | feed =>
      change Text.splitLines ('\n' :: rest) = _
      rw [Text.splitLines, if_pos (by decide)]
      rintro _ ⟨⟩
  | returnAndFeed => rfl

theorem splitLines_append {line : List Char} (single : ∀ c ∈ line, Text.isLineEnd c = false)
    (lineEnd : LineEnd) (rest : List Char) :
    Text.splitLines (line ++ (lineEnd.chars ++ rest)) = line :: Text.splitLines rest := by
  induction line with
  | nil => exact splitLines_lineEnd lineEnd rest
  | cons c line ih =>
      obtain ⟨here, later⟩ := List.forall_mem_cons.mp single
      rw [List.cons_append, Text.splitLines, if_neg (Bool.eq_false_iff.mp here), ih later]
      rintro _ rfl
      cases here

/-! ### Attributes -/

theorem lookUp?_line {entry : Entry} (proper : entry.IsProper) (name : List Char)
    (rest : List (List Char)) :
    lookUp? name (entry.line :: rest) =
      if Text.stripChars entry.name = name then some (Text.stripChars entry.value)
      else lookUp? name rest := by
  have visible : entry.line.all Text.isBlank = false := by
    rw [List.all_eq_false]
    exact ⟨':', List.mem_append_right _ List.mem_cons_self, by decide⟩
  rw [lookUp?, visible, if_neg Bool.false_ne_true]
  unfold Entry.line
  rw [Text.cutAt?_append_separator proper.colon]
  rfl

theorem lookUp?_of_endsSection {rest : List Char} (ends : EndsSection rest) (name : List Char) :
    lookUp? name (Text.splitLines (unfold rest)) = none := by
  cases ends with
  | nothing => rfl
  | @emptyLine lineEnd further begins =>
      rw [unfold_lineEnd lineEnd begins, splitLines_lineEnd]
      rfl

theorem EndsSection.head? {rest : List Char} (ends : EndsSection rest) : rest.head? ≠ some ' ' := by
  cases ends with
  | nothing => nofun
  | @emptyLine lineEnd further begins => cases lineEnd <;> nofun

theorem lookUp?_section {entries : List Entry} (proper : ∀ entry ∈ entries, entry.IsProper)
    {rest : List Char} (ends : EndsSection rest) (name : List Char) :
    lookUp? name (Text.splitLines (unfold (entries.flatMap Entry.chars ++ rest))) =
      (entries.find? fun entry => Text.stripChars entry.name = name).map fun entry =>
        Text.stripChars entry.value := by
  induction entries with
  | nil => exact lookUp?_of_endsSection ends name
  | cons entry entries ih =>
      obtain ⟨here, later⟩ := List.forall_mem_cons.mp proper
      have begins : (entries.flatMap Entry.chars ++ rest).head? ≠ some ' ' := by
        cases entries with
        | nil => exact ends.head?
        | cons next entries =>
            rw [List.flatMap_cons, List.append_assoc]
            exact (later next List.mem_cons_self).head?_chars _
      rw [List.flatMap_cons, List.append_assoc, Entry.unfold_chars here begins,
        splitLines_append here.single_line, lookUp?_line here, ih later, List.find?_cons]
      by_cases found : Text.stripChars entry.name = name
      · rw [if_pos found, decide_eq_true found]
        rfl
      · rw [if_neg found, decide_eq_false found]

/-- However the lines of the main section are folded and ended, and whatever comes behind it, what
is found under a name is the value of the first attribute of that name, both without blanks at
their ends. -/
theorem attribute?_of_entries {entries : List Entry} (proper : ∀ entry ∈ entries, entry.IsProper)
    {rest : List Char} (ends : EndsSection rest) (name : String) :
    attribute? (String.ofList (entries.flatMap Entry.chars ++ rest)) name =
      (entries.find? fun entry => Text.stripChars entry.name = name.toList).map fun entry =>
        String.ofList (Text.stripChars entry.value) := by
  unfold attribute?
  rw [String.toList_ofList, lookUp?_section proper ends, Option.map_map]
  rfl

/-- A name that is folded behind its first character and a value that is folded around its first
space, with two folds in one place. -/
def foldedEntry : Entry where
  name := "Automatic-Module-Name".toList
  value := "org.example".toList
  head := ['A']
  folds := [(.feed, "utomatic-Module-Name:".toList), (.returnAndFeed, " org".toList), (.feed, []),
    (.feed, ".example".toList)]
  ending := .feed

/-- The folded attribute, an empty line and another section. -/
theorem attribute?_of_entries_folded :
    let rest := LineEnd.returnAndFeed.chars ++ "Automatic-Module-Name: other\n".toList
    let text := "A\n utomatic-Module-Name:\r\n  org\n \n .example\n" ++
      "\r\nAutomatic-Module-Name: other\n"
    (∀ entry ∈ [foldedEntry], entry.IsProper) ∧ EndsSection rest ∧
      String.ofList ([foldedEntry].flatMap Entry.chars ++ rest) = text ∧
      attribute? text "Automatic-Module-Name" = some "org.example" ∧
      attribute? text "Name" = none := by
  intro rest text
  have single : (foldedEntry.name ++ foldedEntry.value).any Text.isLineEnd = false := by decide
  have proper : ∀ entry ∈ [foldedEntry], entry.IsProper := by
    intro entry present
    rw [List.mem_singleton.mp present]
    refine ⟨?_, by decide, by decide, by decide, by decide⟩
    intro c within
    exact Bool.eq_false_iff.mpr (List.any_eq_false.mp single c within)
  have ends : EndsSection rest := .emptyLine (by decide)
  have written : String.ofList ([foldedEntry].flatMap Entry.chars ++ rest) = text := by
    decide
  have found := attribute?_of_entries proper ends "Automatic-Module-Name"
  have missed := attribute?_of_entries proper ends "Name"
  rw [written] at found missed
  exact ⟨proper, ends, written, found.trans (by decide), missed.trans (by decide)⟩

end ModulePlan.Manifest
