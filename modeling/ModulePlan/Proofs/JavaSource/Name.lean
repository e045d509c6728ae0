/-
Names of modules, as they are written and as they are shown.

Of a name as it is written, white space is left out and all else is shown: the identifiers with dots
between them, and whatever comments stand among them.
-/

import ModulePlan.Proofs.JavaSource.Layout
import ModulePlan.Proofs.Text.Blank

namespace ModulePlan.JavaSource

/-- What is shown of some tokens: all but the white space. -/
def visible (tokens : List Token) : List Char :=
  (textOf tokens).filter fun c => !Text.isBlank c

theorem visible_append (first second : List Token) :
    visible (first ++ second) = visible first ++ visible second := by
  unfold visible
  rw [textOf_append, List.filter_append]

theorem visible_word {text : List Char} (identifier : Text.isIdentifier text = true) :
    visible [.word text] = text := by
  unfold visible textOf
  rw [List.flatMap_singleton]
  refine List.filter_eq_self.mpr fun c present => ?_
  rw [Text.isBlank_of_part (Text.part_of_identifier identifier c present)]
  rfl

theorem visible_further {further : Further}
    (identifier : Text.isIdentifier further.identifier = true) :
    visible further.tokens =
      visible further.before ++ '.' :: (visible further.after ++ further.identifier) := by
  have dot : visible [.sign '.'] = ['.'] := by decide
  change visible (further.before ++ ([.sign '.'] ++ (further.after ++ [.word _]))) = _
  rw [visible_append, visible_append, visible_append, dot, visible_word identifier]
  rfl

theorem visible_gap {token : Token} (gap : token.isGap = true) (proper : token.IsProper) :
    visible [token] = [] ↔ token.isComment = false := by
  have slash : ∀ rest : List Char, ('/' :: rest).filter (fun c => !Text.isBlank c) ≠ [] := by
    intro rest
    rw [List.filter_cons_of_pos (by decide)]
    exact List.cons_ne_nil _ _
  cases token with
  | blank c =>
      have blank : Text.isBlank c = true := proper
      simp [visible, textOf, Token.chars, Token.isComment, blank]
  | lineComment body | blockComment body =>
      refine ⟨fun hidden => absurd hidden (slash _), fun plain => ?_⟩
      cases plain
  | word | sign | literal => cases gap

/-- Of gaps, only comments are seen. -/
theorem visible_eq_nil_iff {gaps : List Token} (sound : AreGaps gaps)
    (proper : ∀ token ∈ gaps, token.IsProper) :
    visible gaps = [] ↔ ∀ token ∈ gaps, token.isComment = false := by
  induction gaps with
  | nil => exact ⟨fun _ => List.forall_mem_nil _, fun _ => rfl⟩
  | cons token rest ih =>
      obtain ⟨gap, gaps⟩ := List.forall_mem_cons.mp sound
      obtain ⟨here, others⟩ := List.forall_mem_cons.mp proper
      change visible ([token] ++ rest) = [] ↔ _
      rw [visible_append, List.append_eq_nil_iff, List.forall_mem_cons]
      exact and_congr (visible_gap gap here) (ih gaps others)

theorem joined_eq (first : List Char) (others : List Further) :
    ['.'].intercalate (first :: others.map Further.identifier) =
      first ++ others.flatMap fun further => '.' :: further.identifier := by
  induction others generalizing first with
  | nil =>
      change ['.'].intercalate [first] = first ++ []
      rw [List.intercalate_singleton, List.append_nil]
  | cons further rest ih =>
      change ['.'].intercalate (first :: further.identifier :: rest.map Further.identifier) = _
      rw [List.intercalate_cons_cons, ih, List.flatMap_cons, List.append_assoc]
      rfl

theorem length_visible_others {others : List Further}
    (proper : ∀ further ∈ others, Text.isIdentifier further.identifier = true) :
    (visible (others.flatMap Further.tokens)).length =
      (others.flatMap fun further => '.' :: further.identifier).length +
        (visible (others.flatMap Further.gaps)).length := by
  induction others with
  | nil => rfl
  | cons further rest ih =>
      obtain ⟨here, later⟩ := List.forall_mem_cons.mp proper
      simp only [List.flatMap_cons, visible_append, visible_further here, Further.gaps,
        List.length_append, List.length_cons, ih later]
      omega

theorem visible_others {others : List Further}
    (proper : ∀ further ∈ others, Text.isIdentifier further.identifier = true)
    (hidden : visible (others.flatMap Further.gaps) = []) :
    visible (others.flatMap Further.tokens) =
      others.flatMap fun further => '.' :: further.identifier := by
  induction others with
  | nil => rfl
  | cons further rest ih =>
      obtain ⟨here, later⟩ := List.forall_mem_cons.mp proper
      simp only [List.flatMap_cons, visible_append, Further.gaps, List.append_eq_nil_iff] at hidden
      obtain ⟨⟨before, after⟩, others⟩ := hidden
      rw [List.flatMap_cons, visible_append, visible_further here, before, after, ih later others]
      rfl

/-- The identifiers with dots between them are shown, and nothing else, exactly if no comment
stands among them. -/
theorem shown_eq_joined_iff {name : QualifiedName} (gaps : AreGaps name.gaps)
    (proper : ∀ token ∈ name.tokens, token.IsProper) :
    name.shown = name.joined ↔ ∀ token ∈ name.gaps, token.isComment = false := by
  obtain ⟨first, others⟩ := name
  obtain ⟨start, later⟩ := List.forall_mem_cons.mp proper
  have inner : ∀ further ∈ others, ∀ token ∈ further.tokens, token.IsProper :=
    fun further present token among => later token (List.mem_flatMap.mpr ⟨further, present, among⟩)
  have identifiers : ∀ further ∈ others, Text.isIdentifier further.identifier = true :=
    fun further present => inner further present (.word further.identifier)
      (by simp [Further.tokens])
  have gapsProper : ∀ token ∈ others.flatMap Further.gaps, token.IsProper := by
    intro token present
    obtain ⟨further, among, inside⟩ := List.mem_flatMap.mp present
    refine inner further among token ?_
    rcases List.mem_append.mp inside with before | after
    · simp [Further.tokens, before]
    · simp [Further.tokens, after]
  have whole : visible (QualifiedName.tokens ⟨first, others⟩) =
      first ++ visible (others.flatMap Further.tokens) := by
    change visible ([.word first] ++ others.flatMap Further.tokens) = _
    rw [visible_append, visible_word start]
  have same : QualifiedName.shown ⟨first, others⟩ = QualifiedName.joined ⟨first, others⟩ ↔
      visible (others.flatMap Further.tokens) =
        others.flatMap fun further => '.' :: further.identifier := by
    change String.ofList (visible _) = String.ofList (['.'].intercalate (first :: _)) ↔ _
    rw [String.ofList_inj, whole, joined_eq, List.append_cancel_left_eq]
  rw [same, ← visible_eq_nil_iff gaps gapsProper]
  constructor
  · intro equal
    have lengths := length_visible_others identifiers
    rw [equal] at lengths
    exact List.eq_nil_of_length_eq_zero (Nat.left_eq_add.mp lengths)
  · exact visible_others identifiers

end ModulePlan.JavaSource
