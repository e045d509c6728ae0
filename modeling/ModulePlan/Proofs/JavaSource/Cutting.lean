/-
Cutting a source file into its tokens.

The written parser takes a line comment to the line feed, so a file whose lines end at carriage
returns alone is left out here.  Of any other file, cutting finds the tokens again.
-/

import ModulePlan.Proofs.JavaSource.Layout
import ModulePlan.Proofs.Text.Blank
import ModulePlan.Proofs.Text.Fields

namespace ModulePlan.JavaSource

namespace Token

def piece : Token → Piece
  | .blank c => .gap [c]
  | .lineComment body => .gap ('/' :: '/' :: body)
  | .blockComment body => .gap ('/' :: '*' :: (body ++ ['*', '/']))
  | .word text => .word text
  | .sign c => .sign c
  | .literal .. => .literal

/-- A line comment is followed by a line feed, if by anything. -/
def EndsAtFeed (next : List Char) : Token → Prop
  | .lineComment _ => ∀ c ∈ next.head?, c = '\n'
  | .blank _ | .blockComment _ | .word _ | .sign _ | .literal .. => True

instance (next : List Char) (token : Token) : Decidable (token.EndsAtFeed next) :=
  match token with
  | .lineComment _ =>
    (Option.decidableForallMem next.head? : Decidable (∀ c ∈ next.head?, c = '\n'))
  | .blank _ | .blockComment _ | .word _ | .sign _ | .literal .. => isTrue trivial

end Token

/-- No line comment ends at a carriage return alone. -/
def EndAtFeeds (tokens : List Token) : Prop :=
  EachBefore Token.EndsAtFeed tokens

instance (tokens : List Token) : Decidable (EndAtFeeds tokens) :=
  inferInstanceAs (Decidable (EachBefore _ tokens))

/-! ### Comments and literals -/

theorem spanComment_append {body : List Char} (inside : ¬['*', '/'] <:+: body)
    (rest : List Char) :
    spanComment (body ++ ['*', '/'] ++ rest) = (body ++ ['*', '/'], rest) := by
  induction body with
  | nil => rfl
  | cons c more ih =>
      have later : ¬['*', '/'] <:+: more :=
        fun within => inside (within.trans (List.suffix_cons c more).isInfix)
      have here : ¬∃ tail, c = '*' ∧ more ++ ['*', '/'] ++ rest = '/' :: tail := by
        rintro ⟨tail, rfl, begins⟩
        cases more with
        | nil => cases begins
        | cons d others =>
            cases begins
            exact inside ⟨[], others, rfl⟩
      rw [List.cons_append, List.cons_append, spanComment, ih later]
      · rintro others rfl begins
        exact here ⟨others, rfl, begins⟩

/-- A character that begins no comment and no text of several lines is cut off by its kind. -/
theorem pieces_cons {c : Char} {rest : List Char}
    (noComment : c = '/' → ∀ d ∈ rest.head?, d ∉ ['/', '*'])
    (noBlock : ¬['"', '"', '"'] <+: c :: rest) :
    pieces (c :: rest) =
      if Text.isBlank c then .gap [c] :: pieces rest
      else if c = '"' || c = '\'' then .literal :: pieces (afterLiteral c rest)
      else if Text.isIdentifierStart c then
        .word (c :: rest.takeWhile Text.isIdentifierPart) ::
          pieces (rest.dropWhile Text.isIdentifierPart)
      else .sign c :: pieces rest := by
  rw [pieces.eq_def]
  split
  · rename_i same
    cases same
  · rename_i same
    cases same
    exact absurd (noComment rfl '/' rfl) (by decide)
  · rename_i same
    cases same
    exact absurd (noComment rfl '*' rfl) (by decide)
  · rename_i more same
    cases same
    exact absurd ⟨more, rfl⟩ noBlock
  · rename_i same
    cases same
    rfl

theorem afterLiteral_append {quote : Char} (noEscape : quote ≠ '\\') {body : List Char}
    (inside : IsBody [quote] body) (rest : List Char) :
    afterLiteral quote (body ++ quote :: rest) = rest := by
  induction inside with
  | nil =>
      rw [List.nil_append, afterLiteral, if_pos rfl]
      rintro d more rfl
      exact absurd rfl noEscape
  | escape c _ ih =>
      rw [List.cons_append, List.cons_append, afterLiteral, ih]
  | @plain c more unlike goesOn _ ih =>
      have other : c ≠ quote := by
        rintro rfl
        exact goesOn ⟨more ++ [c], rfl⟩
      rw [List.cons_append, afterLiteral, if_neg other, ih]
      rintro d others rfl
      exact absurd rfl unlike

theorem afterTextBlock_append {body : List Char} (inside : IsBody ['"', '"', '"'] body)
    (rest : List Char) :
    afterTextBlock (body ++ (['"', '"', '"'] ++ rest)) = rest := by
  induction inside with
  | nil => rfl
  | escape c _ ih =>
      rw [List.cons_append, List.cons_append, afterTextBlock, ih]
  | @plain c more unlike goesOn _ ih =>
      rw [List.cons_append, afterTextBlock, ih]
      · rintro d others rfl
        exact absurd rfl unlike
      · rintro others rfl begins
        have two : ['"', '"'] <+: more ++ ['"', '"', '"'] := by
          refine List.prefix_of_prefix_length_le ⟨others, begins.symm⟩ ?_ ?_
          · rw [← List.append_assoc]
            exact List.prefix_append _ rest
          · rw [List.length_append]
            exact Nat.le_trans (by decide) (Nat.le_add_left 3 more.length)
        exact goesOn (List.cons_prefix_cons.mpr ⟨rfl, two⟩)

theorem pieces_blank {c : Char} (blank : Text.isBlank c = true) (rest : List Char) :
    pieces (c :: rest) = .gap [c] :: pieces rest := by
  rw [pieces_cons, if_pos blank]
  · rintro rfl
    exact absurd blank (by decide)
  · intro marked
    obtain rfl := (List.cons_prefix_cons.mp marked).1
    exact absurd blank (by decide)

theorem pieces_lineComment {body rest : List Char} (inside : '\n' ∉ body)
    (ends : ∀ c ∈ rest.head?, c = '\n') :
    pieces ('/' :: '/' :: (body ++ rest)) = .gap ('/' :: '/' :: body) :: pieces rest := by
  have goesOn : ∀ c ∈ body, decide (c ≠ '\n') = true := by
    intro c present
    refine decide_eq_true ?_
    rintro rfl
    exact inside present
  obtain ⟨taken, dropped⟩ := Text.cut_run goesOn
    fun c first => decide_eq_false fun other => other (ends c first)
  rw [pieces.eq_def]
  simp only [dropped, taken]

theorem pieces_word {c : Char} {more rest : List Char} (start : Text.isIdentifierStart c = true)
    (parts : ∀ d ∈ more, Text.isIdentifierPart d = true)
    (ends : ∀ d ∈ rest.head?, Text.isIdentifierPart d = false) :
    pieces (c :: (more ++ rest)) = .word (c :: more) :: pieces rest := by
  obtain ⟨taken, dropped⟩ := Text.cut_run parts ends
  have visible : Text.isBlank c = false := Text.isBlank_of_part (Text.part_of_start start)
  have other : ∀ {d : Char}, Text.isIdentifierStart d = false → c ≠ d := by
    rintro d stops rfl
    cases stops.symm.trans start
  have noQuote : ¬(decide (c = '"') || decide (c = '\'')) = true := by
    rw [decide_eq_false (other (d := '"') (by decide)),
      decide_eq_false (other (d := '\'') (by decide))]
    exact Bool.false_ne_true
  rw [pieces_cons, if_neg (Bool.eq_false_iff.mp visible), if_neg noQuote, if_pos start, taken,
    dropped]
  · intro same
    exact absurd same (other (by decide))
  · intro marked
    exact absurd (List.cons_prefix_cons.mp marked).1.symm (other (by decide))

theorem pieces_sign {c : Char} {rest : List Char} (visible : Text.isBlank c = false)
    (noStart : Text.isIdentifierStart c = false) (noQuote : c ∉ ['\'', '"'])
    (noComment : c = '/' → ∀ d ∈ rest.head?, d ∉ ['/', '*']) :
    pieces (c :: rest) = .sign c :: pieces rest := by
  obtain ⟨noSingle, noDouble⟩ : c ≠ '\'' ∧ c ≠ '"' := by
    rw [List.mem_pair, not_or] at noQuote
    exact noQuote
  have neither : ¬(decide (c = '"') || decide (c = '\'')) = true := by
    rw [decide_eq_false noDouble, decide_eq_false noSingle]
    exact Bool.false_ne_true
  rw [pieces_cons noComment, if_neg (Bool.eq_false_iff.mp visible), if_neg neither,
    if_neg (Bool.eq_false_iff.mp noStart)]
  intro marked
  exact noDouble (List.cons_prefix_cons.mp marked).1.symm

theorem pieces_literal {quote : Char} (known : quote = '\'' ∨ quote = '"') {body : List Char}
    (inside : IsBody [quote] body) {rest : List Char}
    (noBlock : ¬['"', '"', '"'] <+: quote :: (body ++ quote :: rest)) :
    pieces (quote :: (body ++ quote :: rest)) = .literal :: pieces rest := by
  have quoted : Text.isBlank quote = false ∧
      (decide (quote = '"') || decide (quote = '\'')) = true ∧ quote ≠ '\\' ∧ quote ≠ '/' := by
    rcases known with rfl | rfl
    · decide
    · decide
  obtain ⟨visible, isQuote, noEscape, noSlash⟩ := quoted
  rw [pieces_cons (fun same => absurd same noSlash) noBlock, if_neg (Bool.eq_false_iff.mp visible),
    if_pos isQuote, afterLiteral_append noEscape inside]

/-- Neither the body of a text nor what stands behind an empty one begins with its mark. -/
theorem not_textBlock {body rest : List Char} (inside : IsBody ['"'] body)
    (ends : body = [] → ∀ c ∈ rest.head?, c ≠ '"') :
    ¬['"', '"', '"'] <+: '"' :: (body ++ '"' :: rest) := by
  intro marked
  have two := (List.cons_prefix_cons.mp marked).2
  cases inside with
  | nil =>
      have one := (List.cons_prefix_cons.mp two).2
      cases rest with
      | nil => exact absurd (List.prefix_nil.mp one) (by decide)
      | cons c more => exact ends rfl c rfl (List.cons_prefix_cons.mp one).1.symm
  | escape c _ => exact absurd (List.cons_prefix_cons.mp two).1 (by decide)
  | plain _ goesOn _ =>
      obtain rfl := (List.cons_prefix_cons.mp two).1
      exact goesOn (List.cons_prefix_cons.mpr ⟨rfl, List.nil_prefix⟩)

/-- A token is cut off where it ends. -/
theorem pieces_chars {token : Token} {rest : List Char} (proper : token.IsProper)
    (ends : token.EndsBefore rest) (feed : token.EndsAtFeed rest) :
    pieces (token.chars ++ rest) = token.piece :: pieces rest := by
  cases token with
  | blank c => exact pieces_blank proper rest
  | lineComment body => exact pieces_lineComment proper.1 feed
  | blockComment body =>
      change pieces ('/' :: '*' :: (body ++ ['*', '/'] ++ rest)) = _
      rw [pieces.eq_def]
      simp only [spanComment_append proper]
      rfl
  | word text =>
      cases text with
      | nil => cases proper
      | cons c more =>
          obtain ⟨start, parts⟩ := Bool.and_eq_true_iff.mp proper
          exact pieces_word start (List.all_eq_true.mp parts) ends
  | sign c => exact pieces_sign proper.1 proper.2.1 proper.2.2 ends
  | literal mark body =>
      obtain ⟨known, inside⟩ := proper
      simp only [marks, List.mem_cons, List.not_mem_nil, or_false] at known
      rcases known with rfl | rfl | rfl
      · change pieces ('\'' :: (body ++ ['\''] ++ rest)) = _
        rw [List.append_assoc]
        refine pieces_literal (Or.inl rfl) inside fun marked => ?_
        exact absurd (List.cons_prefix_cons.mp marked).1 (by decide)
      · change pieces ('"' :: (body ++ ['"'] ++ rest)) = _
        rw [List.append_assoc]
        exact pieces_literal (Or.inr rfl) inside (not_textBlock inside (ends rfl))
      · change pieces ('"' :: '"' :: '"' :: (body ++ ['"', '"', '"'] ++ rest)) = _
        rw [pieces.eq_def, List.append_assoc]
        simp only [afterTextBlock_append inside]
        rfl

/-- A source file is cut into its tokens. -/
theorem pieces_textOf {tokens : List Token} (apart : AreApart tokens)
    (feeds : EndAtFeeds tokens) :
    pieces (textOf tokens) = tokens.map Token.piece := by
  induction tokens with
  | nil =>
      change pieces [] = []
      rw [pieces.eq_def]
  | cons token rest ih =>
      obtain ⟨⟨proper, ends⟩, later⟩ := apart
      change pieces (token.chars ++ textOf rest) = _
      rw [pieces_chars proper ends feeds.1, ih later feeds.2, List.map_cons]

end ModulePlan.JavaSource
