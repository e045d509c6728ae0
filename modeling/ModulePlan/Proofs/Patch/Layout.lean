/-
Tokens laid out as text.

Tokens may be written with any blanks and comments before, between and behind them, as long as
two words do not touch and no comment follows directly on a word that ends in a slash, which
would begin another comment with it.  Scanning a text that is laid out so finds the tokens
again, each on the line that it was written on.
-/

import Mathlib.Data.List.Infix
import ModulePlan.Proofs.Patch.Grammar
import ModulePlan.Proofs.Patch.Scanning

namespace ModulePlan.Patch

/-! ### Layouts -/

/-- A stretch of text between tokens.  A line comment goes on to the end of its line. -/
inductive Gap where
  | blank (c : Char)
  | blockComment (body : List Char)
  | lineComment (body : List Char)

namespace Gap

def chars : Gap → List Char
  | .blank c => [c]
  | .blockComment body => '/' :: '*' :: (body ++ ['*', '/'])
  | .lineComment body => '/' :: '/' :: (body ++ ['\n'])

def isComment : Gap → Bool
  | .blank _ => false
  | .blockComment _ | .lineComment _ => true

/-- A comment does not hold its own end. -/
def IsProper : Gap → Prop
  | .blank c => Text.isBlank c = true
  | .blockComment body => ¬['*', '/'] <:+: body
  | .lineComment body => '\n' ∉ body

instance (gap : Gap) : Decidable gap.IsProper :=
  match gap with
  | .blank c => inferInstanceAs (Decidable (Text.isBlank c = true))
  | .blockComment body => inferInstanceAs (Decidable ¬['*', '/'] <:+: body)
  | .lineComment body => inferInstanceAs (Decidable ('\n' ∉ body))

end Gap

/-- The characters of one word: no blank and no mark is among them, and no comment begins
within them. -/
structure AreWord (word : List Char) : Prop where
  whole : ∀ c ∈ word, Text.isBlank c = false ∧ c ∉ ['{', '}', ';', ',']
  noLineComment : ¬['/', '/'] <:+: word
  noBlockComment : ¬['/', '*'] <:+: word

instance (word : List Char) : Decidable (AreWord word) :=
  -- The characters of the word are tried, not all characters.
  have : Decidable (∀ c ∈ word, Text.isBlank c = false ∧ c ∉ ['{', '}', ';', ',']) :=
    List.decidableBAll _ word
  decidable_of_iff
    ((∀ c ∈ word, Text.isBlank c = false ∧ c ∉ ['{', '}', ';', ',']) ∧
      ¬['/', '/'] <:+: word ∧ ¬['/', '*'] <:+: word)
    ⟨fun given => ⟨given.1, given.2.1, given.2.2⟩,
      fun sound => ⟨sound.whole, sound.noLineComment, sound.noBlockComment⟩⟩

namespace Token

def IsWritable : Token → Prop
  | .mark _ => True
  | .word text => text ≠ "" ∧ AreWord text.toList

instance (token : Token) : Decidable token.IsWritable :=
  match token with
  | .mark _ => isTrue trivial
  | .word text => inferInstanceAs (Decidable (text ≠ "" ∧ AreWord text.toList))

def isWord : Token → Bool
  | .mark _ => false
  | .word _ => true

end Token

/-- Tokens with the gaps before them, and the gaps behind the last one, where the text may end
within a line comment. -/
inductive Layout where
  | last (gaps : List Gap) (openComment : Option (List Char))
  | next (gaps : List Gap) (token : Token) (rest : Layout)

namespace Layout

def gapChars (gaps : List Gap) : List Char :=
  gaps.flatMap Gap.chars

def openChars : Option (List Char) → List Char
  | none => []
  | some body => '/' :: '/' :: body

def chars : Layout → List Char
  | .last gaps openComment => gapChars gaps ++ openChars openComment
  | .next gaps token rest => gapChars gaps ++ (token.text.toList ++ rest.chars)

def tokens : Layout → List Token
  | .last .. => []
  | .next _ token rest => token :: rest.tokens

def beginsWithWord : Layout → Bool
  | .next [] token _ => token.isWord
  | .next (_ :: _) .. | .last .. => false

def beginsWithComment : Layout → Bool
  | .last [] openComment => openComment.isSome
  | .next [] .. => false
  | .last (gap :: _) _ | .next (gap :: _) .. => gap.isComment

/-- A token is not run together with what follows. -/
structure IsApart (token : Token) (rest : Layout) : Prop where
  words : token.isWord = true → rest.beginsWithWord = false
  slashes : token.text.toList.getLast? = some '/' → rest.beginsWithComment = false

instance (token : Token) (rest : Layout) : Decidable (IsApart token rest) :=
  decidable_of_iff
    ((token.isWord = true → rest.beginsWithWord = false) ∧
      (token.text.toList.getLast? = some '/' → rest.beginsWithComment = false))
    ⟨fun given => ⟨given.1, given.2⟩, fun apart => ⟨apart.words, apart.slashes⟩⟩

def IsProper : Layout → Prop
  | .last gaps openComment =>
    (∀ gap ∈ gaps, gap.IsProper) ∧ ∀ body ∈ openComment, '\n' ∉ body
  | .next gaps token rest =>
    (∀ gap ∈ gaps, gap.IsProper) ∧ token.IsWritable ∧ IsApart token rest ∧ rest.IsProper

def decideProper : (layout : Layout) → Decidable layout.IsProper
  | .last gaps openComment =>
    inferInstanceAs (Decidable ((∀ gap ∈ gaps, gap.IsProper) ∧ ∀ body ∈ openComment, '\n' ∉ body))
  | .next gaps token rest =>
    have := decideProper rest
    inferInstanceAs (Decidable ((∀ gap ∈ gaps, gap.IsProper) ∧ token.IsWritable ∧
      IsApart token rest ∧ rest.IsProper))

instance (layout : Layout) : Decidable layout.IsProper :=
  decideProper layout

/-- The line that is reached behind some gaps. -/
def lineAfter (gaps : List Gap) (line : Nat) : Nat :=
  line + (gapChars gaps).count '\n'

/-- The tokens with the lines that they are written on. -/
def lined (line : Nat) : Layout → Tokens
  | .last gaps _ => .endOfFile (lineAfter gaps line)
  | .next gaps token rest => .cons token (lineAfter gaps line) (rest.lined (lineAfter gaps line))

end Layout

namespace Tokens

/-! ### Gaps -/

theorem dropWhile_append {body : List Char} (inside : '\n' ∉ body) (rest : List Char) :
    (body ++ rest).dropWhile (· ≠ '\n') = rest.dropWhile (· ≠ '\n') := by
  apply List.dropWhile_append_of_pos
  intro c present
  apply decide_eq_true
  intro same
  rcases same with rfl
  exact inside present

/-- A block comment is closed where its body ends, and not before. -/
theorem closeComment_append {body : List Char} (inside : ¬['*', '/'] <:+: body)
    (rest : List Char) :
    closeComment (body ++ '*' :: '/' :: rest) = some (body.count '\n', rest) := by
  induction body with
  | nil => rfl
  | cons c body ih =>
      have later : ¬['*', '/'] <:+: body := fun within =>
        inside (within.trans (List.suffix_cons c body).isInfix)
      have goesOn : ¬(c = '*' && (body ++ '*' :: '/' :: rest).head? = some '/') = true := by
        rw [Bool.and_eq_true, decide_eq_true_eq, decide_eq_true_eq]
        intro given
        rcases given with ⟨rfl, next⟩
        cases body with
        | nil => cases next
        | cons d body =>
            cases next
            exact inside ⟨[], body, rfl⟩
      rw [List.cons_append, closeComment, if_neg goesOn, ih later, List.count_cons]
      by_cases feed : c = '\n' <;> simp [feed]

theorem scan_gap {gap : Gap} (proper : gap.IsProper) (line : Nat) (rest : List Char) :
    scan line (gap.chars ++ rest) = scan (line + gap.chars.count '\n') rest := by
  cases gap with
  | blank c =>
      by_cases feed : c = '\n'
      · rw [feed]
        exact scan_feed line rest
      · have none : [c].count '\n' = 0 := by simp [feed]
        rw [Gap.chars, none]
        exact scan_blank proper feed line rest
  | blockComment body =>
      have closed := closeComment_append proper rest
      have lines : (Gap.blockComment body).chars.count '\n' = body.count '\n' := by
        simp [Gap.chars]
      rw [lines, ← scan_blockComment closed]
      simp [Gap.chars]
  | lineComment body =>
      have lines : (Gap.lineComment body).chars.count '\n' = 1 := by
        simp [Gap.chars, List.count_eq_zero_of_not_mem proper]
      have written : (Gap.lineComment body).chars ++ rest =
          '/' :: '/' :: (body ++ '\n' :: rest) := by
        simp [Gap.chars]
      rw [lines, written, scan_lineComment, dropWhile_append proper]
      exact scan_feed line rest

theorem scan_gaps {gaps : List Gap} (proper : ∀ gap ∈ gaps, gap.IsProper) (line : Nat)
    (rest : List Char) :
    scan line (Layout.gapChars gaps ++ rest) = scan (Layout.lineAfter gaps line) rest := by
  unfold Layout.lineAfter
  induction gaps generalizing line with
  | nil => rfl
  | cons gap gaps ih =>
      obtain ⟨here, later⟩ := List.forall_mem_cons.mp proper
      unfold Layout.gapChars at ih ⊢
      rw [List.flatMap_cons, List.append_assoc, scan_gap here, ih later, List.count_append,
        Nat.add_assoc]

/-! ### Words -/

/-- A word ends before this text, and no comment begins with its last slash. -/
structure Stops (word rest : List Char) : Prop where
  ends : ∀ c after, rest = c :: after → endsWord c after = true
  slash : word.getLast? = some '/' → rest.head? ≠ some '/' ∧ rest.head? ≠ some '*'

private theorem endsWord_of_areWord {c : Char} {word rest : List Char}
    (sound : AreWord (c :: word)) (stops : Stops (c :: word) rest) :
    endsWord c (word ++ rest) = false := by
  obtain ⟨visible, unmarked⟩ := sound.whole c List.mem_cons_self
  have noComment : opensComment c (word ++ rest) = false := by
    unfold opensComment
    rw [Bool.and_eq_false_imp, decide_eq_true_eq]
    intro slash
    rcases slash with rfl
    cases word with
    | nil =>
        obtain ⟨noLine, noBlock⟩ := stops.slash rfl
        simp [noLine, noBlock]
    | cons d word =>
        have noLine : d ≠ '/' := by
          intro same
          rcases same with rfl
          exact sound.noLineComment ⟨[], word, rfl⟩
        have noBlock : d ≠ '*' := by
          intro same
          rcases same with rfl
          exact sound.noBlockComment ⟨[], word, rfl⟩
        simp [noLine, noBlock]
  have noMark : (Mark.ofChar? c).isSome = false :=
    Bool.eq_false_iff.mpr (mt ofChar?_isSome_iff.mp unmarked)
  unfold endsWord
  rw [visible, noMark, noComment]
  rfl

private theorem areWord_tail {c : Char} {word : List Char} (sound : AreWord (c :: word)) :
    AreWord word where
  whole := fun d present => sound.whole d (List.mem_cons_of_mem c present)
  noLineComment := fun within =>
    sound.noLineComment (within.trans (List.suffix_cons c word).isInfix)
  noBlockComment := fun within =>
    sound.noBlockComment (within.trans (List.suffix_cons c word).isInfix)

private theorem stops_tail {c : Char} {word rest : List Char} (stops : Stops (c :: word) rest) :
    Stops word rest where
  ends := stops.ends
  slash := by
    intro last
    cases word with
    | nil => cases last
    | cons d word => exact stops.slash last

theorem spanWord_append {word rest : List Char} (sound : AreWord word)
    (stops : Stops word rest) : spanWord (word ++ rest) = (word, rest) := by
  induction word with
  | nil =>
      cases rest with
      | nil => rfl
      | cons c after =>
          unfold spanWord
          exact if_pos (stops.ends c after rfl)
  | cons c word ih =>
      rw [List.cons_append, spanWord, endsWord_of_areWord sound stops,
        ih (areWord_tail sound) (stops_tail stops)]
      rfl

theorem scan_word {text : String} (some : text ≠ "") (sound : AreWord text.toList)
    {rest : List Char} (stops : Stops text.toList rest) (line : Nat) :
    scan line (text.toList ++ rest) = .cons (.word text) line (scan line rest) := by
  cases split : text.toList with
  | nil => exact absurd (String.toList_eq_nil_iff.mp split) some
  | cons c word =>
      rw [split] at sound stops
      rw [List.cons_append, scan_of_not_endsWord (endsWord_of_areWord sound stops),
        spanWord_append (areWord_tail sound) (stops_tail stops), ← split, String.ofList_toList]

/-- Plain characters make up a word. -/
theorem areWord_of_plain {word : List Char} (plain : ∀ c ∈ word, isPlain c = true) :
    AreWord word := by
  have free : ∀ {second : Char}, ¬['/', second] <:+: word := by
    intro second within
    exact absurd (plain '/' (within.subset List.mem_cons_self)) (by decide)
  refine ⟨?_, free, free⟩
  intro c present
  have here := plain c present
  unfold isPlain at here
  simp only [Bool.and_eq_true, Bool.not_eq_true', Option.isNone_iff_eq_none] at here
  refine ⟨here.1.1, ?_⟩
  intro marked
  have found := ofChar?_isSome_iff.mpr marked
  rw [here.1.2] at found
  cases found

theorem isWritable_of_valid {name : String} (valid : isValidName name = true) :
    (Token.word name).IsWritable := by
  obtain ⟨some, plain⟩ := plain_of_valid valid
  refine ⟨?_, areWord_of_plain plain⟩
  intro empty
  exact some (String.toList_eq_nil_iff.mpr empty)

/-! ### Whole texts -/

theorem toList_mark (sign : Mark) : (Token.mark sign).text.toList = [sign.char] := by
  cases sign <;> rfl

private theorem stops_nil (word : List Char) : Stops word [] where
  ends := fun _ _ same => nomatch same
  slash := fun _ => ⟨nofun, nofun⟩

private theorem stops_blank {c : Char} (blank : Text.isBlank c = true) (word rest : List Char) :
    Stops word (c :: rest) where
  ends := by
    intro d after same
    cases same
    unfold endsWord
    rw [blank]
    rfl
  slash := by
    intro _
    constructor
    · rintro ⟨⟩
      exact absurd blank (by decide)
    · rintro ⟨⟩
      exact absurd blank (by decide)

private theorem stops_mark (sign : Mark) (word rest : List Char) :
    Stops word (sign.char :: rest) where
  ends := by
    intro c after same
    cases same
    cases sign <;> rfl
  slash := by
    intro _
    cases sign <;> simp [Mark.char]

private theorem stops_comment {second : Char} (opens : second = '/' ∨ second = '*')
    {word : List Char} (noSlash : word.getLast? ≠ some '/') (rest : List Char) :
    Stops word ('/' :: second :: rest) where
  ends := by
    intro c after same
    cases same
    rcases opens with rfl | rfl
    · rfl
    · rfl
  slash := fun last => absurd last noSlash

private theorem stops_gap {gap : Gap} (proper : gap.IsProper) {word : List Char}
    (apart : word.getLast? = some '/' → gap.isComment = false) (rest : List Char) :
    Stops word (gap.chars ++ rest) := by
  cases gap with
  | blank c => exact stops_blank proper word rest
  | blockComment body =>
      exact stops_comment (Or.inr rfl) (fun last => nomatch apart last) _
  | lineComment body =>
      exact stops_comment (Or.inl rfl) (fun last => nomatch apart last) _

/-- A word ends where what is apart from it begins. -/
theorem stops_of_isApart {text : String} {rest : Layout}
    (apart : Layout.IsApart (.word text) rest) (proper : rest.IsProper) :
    Stops text.toList rest.chars := by
  cases rest with
  | last gaps openComment =>
      cases gaps with
      | cons gap gaps =>
          have here := (List.forall_mem_cons.mp proper.1).1
          rw [Layout.chars, Layout.gapChars, List.flatMap_cons, List.append_assoc]
          exact stops_gap here apart.slashes _
      | nil =>
          cases openComment with
          | none => exact stops_nil _
          | some body =>
              exact stops_comment (Or.inl rfl) (fun last => nomatch apart.slashes last) body
  | next gaps token rest =>
      cases gaps with
      | cons gap gaps =>
          have here := (List.forall_mem_cons.mp proper.1).1
          rw [Layout.chars, Layout.gapChars, List.flatMap_cons, List.append_assoc]
          exact stops_gap here apart.slashes _
      | nil =>
          cases token with
          | word other => exact nomatch apart.words rfl
          | mark sign =>
              have stops := stops_mark sign text.toList rest.chars
              rw [← List.singleton_append, ← toList_mark] at stops
              exact stops

/-- Scanning a layout finds its tokens, each on its line. -/
theorem scan_chars {layout : Layout} (proper : layout.IsProper) (line : Nat) :
    scan line layout.chars = layout.lined line := by
  induction layout generalizing line with
  | last gaps openComment =>
      obtain ⟨gapsProper, inside⟩ := proper
      rw [Layout.chars, scan_gaps gapsProper, Layout.lined]
      cases openComment with
      | none =>
          rw [Layout.openChars, scan]
      | some body =>
          have all := dropWhile_append (inside body rfl) []
          rw [List.append_nil] at all
          rw [Layout.openChars, scan_lineComment, all, List.dropWhile_nil, scan]
  | next gaps token rest ih =>
      obtain ⟨gapsProper, writable, apart, later⟩ := proper
      rw [Layout.chars, scan_gaps gapsProper, Layout.lined, ← ih later]
      cases token with
      | mark sign =>
          rw [toList_mark]
          exact scan_mark sign _ rest.chars
      | word text => exact scan_word writable.1 writable.2 (stops_of_isApart apart later) _

theorem isComplete_lined (layout : Layout) (line : Nat) :
    (layout.lined line).isComplete = true := by
  induction layout generalizing line with
  | last gaps openComment => rfl
  | next gaps token rest ih => exact ih _

theorem bare_lined (layout : Layout) (line : Nat) : (layout.lined line).bare = layout.tokens := by
  induction layout generalizing line with
  | last gaps openComment => rfl
  | next gaps token rest ih => exact congrArg (token :: ·) (ih _)

theorem ofText_chars {layout : Layout} (proper : layout.IsProper) :
    ofText (String.ofList layout.chars) = layout.lined 1 := by
  unfold ofText
  rw [String.toList_ofList, scan_chars proper]

end Tokens

/-- Whatever stands between the tokens of a text, scanning finds exactly the tokens, and the
end of the file behind them. -/
theorem Tokens.ofText_layout {layout : Layout} (proper : layout.IsProper) :
    (Tokens.ofText (String.ofList layout.chars)).isComplete = true ∧
      (Tokens.ofText (String.ofList layout.chars)).bare = layout.tokens := by
  rw [ofText_chars proper]
  exact ⟨isComplete_lined layout 1, bare_lined layout 1⟩

/-- Slashes and stars meet at every border, and the text ends within a comment. -/
def crowdedLayout : Layout :=
  .next [.blockComment ['*']] (.word "a*")
    (.next [.blockComment ['/'], .lineComment ['/', '*']] (.word "*/b/")
      (.next [.blank '\n', .blockComment []] (.mark .comma)
        (.next [] (.word "/") (.last [.blank ' '] (some ['*', '/'])))))

theorem Tokens.ofText_layout_crowded :
    let text := "/***/a*/*/*////*\n*/b/\n/**/,/ //*/"
    crowdedLayout.IsProper ∧ String.ofList crowdedLayout.chars = text ∧
      (Tokens.ofText text).isComplete = true ∧
      (Tokens.ofText text).bare = [.word "a*", .word "*/b/", .mark .comma, .word "/"] := by
  intro text
  have proper : crowdedLayout.IsProper := by decide
  have written : String.ofList crowdedLayout.chars = text := by decide
  have found := Tokens.ofText_layout proper
  rw [written] at found
  exact ⟨proper, written, found⟩

end ModulePlan.Patch
