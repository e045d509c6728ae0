/-
What scanning makes of every character.

A text is made up of tokens with gaps of blanks and complete comments between them, up to its
end or up to a comment without an end.  There is only one way to cut a text so, and scanning
finds it, each token on the line that it begins on.
-/

import ModulePlan.Proofs.Patch.Layout

namespace ModulePlan.Patch

/-! ### Cuts of a text -/

def BeginsComment (cs : List Char) : Prop :=
  ['/', '/'] <+: cs ∨ ['/', '*'] <+: cs

/-- The texts before which a word ends: none at all, or a blank, a mark or a comment. -/
def IsBoundary : List Char → Prop
  | [] => True
  | c :: rest =>
    Text.isBlank c = true ∨ c ∈ ['{', '}', ';', ','] ∨ BeginsComment (c :: rest)

/-- The characters of a word that goes on as far as it can before the rest of a text.  No comment
begins within it, also not one that only its last character belongs to. -/
structure IsWordBefore (word rest : List Char) : Prop where
  some : word ≠ []
  whole : ∀ c ∈ word, Text.isBlank c = false ∧ c ∉ ['{', '}', ';', ',']
  noComment : ∀ inside, inside <:+ word → inside ≠ [] → ¬BeginsComment (inside ++ rest)
  maximal : IsBoundary rest

namespace Tokens

/-- The line of a character, by the text before it. -/
def lineBehind (before : List Char) : Nat :=
  1 + before.count '\n'

open Layout (gapChars openChars)

/-- What comes behind the first part of a text is made up of these tokens. -/
inductive Covers : List Char → List Char → Tokens → Prop
  | endOfFile {before : List Char} {gaps : List Gap} {lineComment : Option (List Char)}
      (proper : ∀ gap ∈ gaps, gap.IsProper) (inside : ∀ body ∈ lineComment, '\n' ∉ body) :
      Covers before (gapChars gaps ++ openChars lineComment)
        (.endOfFile (lineBehind (before ++ (gapChars gaps ++ openChars lineComment))))
  | openComment {before body : List Char} {gaps : List Gap}
      (proper : ∀ gap ∈ gaps, gap.IsProper) (unclosed : ¬['*', '/'] <:+: body) :
      Covers before (gapChars gaps ++ '/' :: '*' :: body)
        (.openComment (lineBehind (before ++ gapChars gaps)))
  | cons {before rest : List Char} {gaps : List Gap} {token : Token} {tokens : Tokens}
      (proper : ∀ gap ∈ gaps, gap.IsProper)
      (word : token.isWord = true → IsWordBefore token.text.toList rest)
      (later : Covers (before ++ (gapChars gaps ++ token.text.toList)) rest tokens) :
      Covers before (gapChars gaps ++ (token.text.toList ++ rest))
        (.cons token (lineBehind (before ++ gapChars gaps)) tokens)

theorem lineBehind_append (before more : List Char) :
    lineBehind (before ++ more) = lineBehind before + more.count '\n' := by
  unfold lineBehind
  rw [List.count_append, Nat.add_assoc]

/-- A comment that goes on to the end of a text stays on its line. -/
theorem count_openChars {lineComment : Option (List Char)}
    (inside : ∀ body ∈ lineComment, '\n' ∉ body) : (openChars lineComment).count '\n' = 0 := by
  apply List.count_eq_zero_of_not_mem
  cases lineComment with
  | none => exact List.not_mem_nil
  | some body => simpa [openChars] using inside body rfl

/-! ### Where comments and words end -/

theorem pair_prefix_iff {first second c : Char} {rest : List Char} :
    [first, second] <+: c :: rest ↔ c = first ∧ rest.head? = some second := by
  cases rest with
  | nil => simp
  | cons d rest => simp [List.cons_prefix_cons, eq_comm]

theorem closeComment_eq_none_iff {cs : List Char} :
    closeComment cs = none ↔ ¬['*', '/'] <:+: cs := by
  induction cs with
  | nil => simp [closeComment]
  | cons c rest ih =>
      rw [List.infix_cons_iff, pair_prefix_iff, not_or, ← ih, closeComment]
      by_cases closes : c = '*' ∧ rest.head? = some '/'
      · simp [closes]
      · rw [if_neg (by simpa using closes), Option.map_eq_none_iff]
        exact (and_iff_right closes).symm

/-- A comment that is closed is closed where its body ends. -/
theorem body_of_closeComment {cs after : List Char} {lines : Nat}
    (closed : closeComment cs = some (lines, after)) :
    ∃ body, ¬['*', '/'] <:+: body ∧ cs = body ++ '*' :: '/' :: after := by
  induction cs generalizing lines with
  | nil => cases closed
  | cons c rest ih =>
      unfold closeComment at closed
      split at closed
      · rename_i closes
        cases closed
        rw [Bool.and_eq_true, decide_eq_true_eq, decide_eq_true_eq] at closes
        obtain ⟨rfl, next⟩ := closes
        cases rest with
        | nil => cases next
        | cons d rest =>
            cases next
            exact ⟨[], by decide, rfl⟩
      · rename_i goesOn
        obtain ⟨⟨count, tail⟩, inner, same⟩ := Option.map_eq_some_iff.mp closed
        cases same
        obtain ⟨body, proper, rfl⟩ := ih inner
        refine ⟨c :: body, ?_, rfl⟩
        rw [List.infix_cons_iff, pair_prefix_iff]
        intro given
        rcases given with ⟨star, slash⟩ | later
        · apply goesOn
          rw [star, List.head?_append, slash]
          rfl
        · exact proper later

theorem opensComment_iff {c : Char} {rest : List Char} :
    opensComment c rest = true ↔ BeginsComment (c :: rest) := by
  unfold opensComment BeginsComment
  rw [pair_prefix_iff, pair_prefix_iff, ← and_or_left]
  simp

theorem endsWord_iff {c : Char} {rest : List Char} :
    endsWord c rest = true ↔ IsBoundary (c :: rest) := by
  unfold endsWord IsBoundary
  rw [Bool.or_eq_true, Bool.or_eq_true, opensComment_iff, ofChar?_isSome_iff, or_assoc]

/-! ### Words -/

private theorem isWordBefore_cons {c : Char} {word rest : List Char}
    (begins : endsWord c (word ++ rest) = false) (maximal : IsBoundary rest)
    (later : word ≠ [] → IsWordBefore word rest) : IsWordBefore (c :: word) rest := by
  rw [Bool.eq_false_iff, ne_eq, endsWord_iff] at begins
  unfold IsBoundary at begins
  rw [not_or, not_or, Bool.not_eq_true] at begins
  obtain ⟨visible, unmarked, noComment⟩ := begins
  refine ⟨List.cons_ne_nil c word, ?_, ?_, maximal⟩
  · refine List.forall_mem_cons.mpr ⟨⟨visible, unmarked⟩, ?_⟩
    intro d present
    exact (later (List.ne_nil_of_mem present)).whole d present
  · intro inside within some
    rcases List.suffix_cons_iff.mp within with rfl | behind
    · exact noComment
    · have remains : word ≠ [] := by
        rintro rfl
        exact some (List.suffix_nil.mp behind)
      exact (later remains).noComment inside behind some

theorem spanWord_eq (cs : List Char) : (spanWord cs).1 ++ (spanWord cs).2 = cs := by
  induction cs with
  | nil => rfl
  | cons c rest ih =>
      unfold spanWord
      cases endsWord c rest with
      | true => rfl
      | false => exact congrArg (c :: ·) ih

/-- A word goes on from its first character to the next boundary. -/
theorem isWordBefore_of_not_endsWord {c : Char} {rest : List Char}
    (begins : endsWord c rest = false) :
    IsWordBefore (c :: (spanWord rest).1) (spanWord rest).2 := by
  induction rest generalizing c with
  | nil => exact isWordBefore_cons begins trivial fun some => absurd rfl some
  | cons d rest ih =>
      cases ends : endsWord d rest with
      | true =>
          have alone : spanWord (d :: rest) = ([], d :: rest) := by
            rw [spanWord, ends]
            rfl
          rw [alone]
          exact isWordBefore_cons begins (endsWord_iff.mp ends) fun some => absurd rfl some
      | false =>
          have longer : spanWord (d :: rest) = (d :: (spanWord rest).1, (spanWord rest).2) := by
            rw [spanWord, ends]
            rfl
          have whole := spanWord_eq (d :: rest)
          rw [longer] at whole ⊢
          rw [← whole] at begins
          exact isWordBefore_cons begins (ih ends).maximal fun _ => ih ends

private theorem not_infix_of_isWordBefore {word rest : List Char} {second : Char}
    (found : IsWordBefore word rest) (comment : ∀ after, BeginsComment ('/' :: second :: after)) :
    ¬['/', second] <:+: word := by
  rintro ⟨before, after, split⟩
  rw [List.append_assoc] at split
  exact found.noComment _ ⟨before, split⟩ (List.cons_ne_nil _ _) (comment (after ++ rest))

theorem areWord_of_isWordBefore {word rest : List Char} (found : IsWordBefore word rest) :
    AreWord word := by
  refine ⟨found.whole, ?_, ?_⟩
  · exact not_infix_of_isWordBefore found fun after => Or.inl ⟨after, rfl⟩
  · exact not_infix_of_isWordBefore found fun after => Or.inr ⟨after, rfl⟩

theorem stops_of_isWordBefore {word rest : List Char} (found : IsWordBefore word rest) :
    Stops word rest where
  ends := by
    rintro c after rfl
    exact endsWord_iff.mpr found.maximal
  slash := by
    intro last
    obtain ⟨before, split⟩ := List.getLast?_eq_some_iff.mp last
    have noComment := found.noComment ['/'] ⟨before, split.symm⟩ (List.cons_ne_nil _ _)
    unfold BeginsComment at noComment
    rw [List.singleton_append, pair_prefix_iff, pair_prefix_iff, not_or] at noComment
    exact ⟨fun next => noComment.1 ⟨rfl, next⟩, fun next => noComment.2 ⟨rfl, next⟩⟩

/-! ### What stands in front -/

/-- A text begins with a gap, with a comment that goes on to its end, with a mark or with a
word. -/
inductive Front : List Char → Prop
  | gap {gap : Gap} {rest : List Char} (proper : gap.IsProper) : Front (gap.chars ++ rest)
  | lineComment {body : List Char} (inside : '\n' ∉ body) : Front ('/' :: '/' :: body)
  | openComment {body : List Char} (unclosed : ¬['*', '/'] <:+: body) : Front ('/' :: '*' :: body)
  | mark {sign : Mark} {rest : List Char} : Front (sign.char :: rest)
  | word {c : Char} {rest : List Char} (begins : endsWord c rest = false) : Front (c :: rest)

private theorem front_of_comment {cs : List Char} (begins : BeginsComment cs) : Front cs := by
  rcases begins with ⟨body, rfl⟩ | ⟨body, rfl⟩
  · by_cases feeds : '\n' ∈ body
    · obtain ⟨line, rest, rfl, inside⟩ := List.eq_append_cons_of_mem feeds
      have front := @Front.gap (.lineComment line) rest inside
      simpa [Gap.chars] using front
    · exact .lineComment feeds
  · cases closed : closeComment body with
    | none => exact .openComment (closeComment_eq_none_iff.mp closed)
    | some found =>
        obtain ⟨inner, proper, rfl⟩ := body_of_closeComment closed
        have front := @Front.gap (.blockComment inner) found.2 proper
        simpa [Gap.chars] using front

theorem front_cons (c : Char) (rest : List Char) : Front (c :: rest) := by
  cases ends : endsWord c rest with
  | false => exact .word ends
  | true =>
      rcases endsWord_iff.mp ends with blank | marked | comment
      · exact @Front.gap (.blank c) rest blank
      · obtain ⟨sign, found⟩ := Option.isSome_iff_exists.mp (ofChar?_isSome_iff.mpr marked)
        rw [← char_of_ofChar? found]
        exact .mark
      · exact front_of_comment comment

/-! ### Scanning finds a cut -/

/-- A gap in front belongs to the gaps before the first token. -/
theorem covers_gap {gap : Gap} (gapProper : gap.IsProper) {before rest : List Char}
    {tokens : Tokens} (later : Covers (before ++ gap.chars) rest tokens) :
    Covers before (gap.chars ++ rest) tokens := by
  cases later with
  | @endOfFile _ gaps lineComment proper inside =>
      have all := @Covers.endOfFile before (gap :: gaps) lineComment
        (List.forall_mem_cons.mpr ⟨gapProper, proper⟩) inside
      simpa [gapChars] using all
  | @openComment _ body gaps proper unclosed =>
      have all := @Covers.openComment before body (gap :: gaps)
        (List.forall_mem_cons.mpr ⟨gapProper, proper⟩) unclosed
      simpa [gapChars] using all
  | @cons _ rest gaps token tokens proper word later =>
      have all := @Covers.cons before rest (gap :: gaps) token tokens
        (List.forall_mem_cons.mpr ⟨gapProper, proper⟩) word (by simpa [gapChars] using later)
      simpa [gapChars] using all

theorem covers_openChars (before : List Char) {lineComment : Option (List Char)}
    (inside : ∀ body ∈ lineComment, '\n' ∉ body) :
    Covers before (openChars lineComment) (.endOfFile (lineBehind before)) := by
  have ending := @Covers.endOfFile before [] lineComment (List.forall_mem_nil _) inside
  rw [gapChars, List.flatMap_nil, List.nil_append, lineBehind_append, count_openChars inside]
    at ending
  exact ending

/-- No token goes on to the next line. -/
theorem not_mem_token {token : Token} {rest : List Char}
    (word : token.isWord = true → IsWordBefore token.text.toList rest) :
    '\n' ∉ token.text.toList := by
  cases token with
  | mark sign => cases sign <;> decide
  | word text =>
      intro present
      exact absurd ((word rfl).whole _ present).1 (by decide)

theorem lineBehind_token {token : Token} {rest : List Char}
    (word : token.isWord = true → IsWordBefore token.text.toList rest) (before : List Char) :
    lineBehind (before ++ token.text.toList) = lineBehind before := by
  rw [lineBehind_append, List.count_eq_zero_of_not_mem (not_mem_token word), Nat.add_zero]

/-- A token may stand in front without a gap, and what comes behind it is scanned from the same
line on. -/
theorem covers_token (before : List Char) {rest : List Char} {token : Token}
    (word : token.isWord = true → IsWordBefore token.text.toList rest)
    (later : Covers (before ++ token.text.toList) rest
      (scan (lineBehind (before ++ token.text.toList)) rest)) :
    Covers before (token.text.toList ++ rest)
      (.cons token (lineBehind before) (scan (lineBehind before) rest)) := by
  have step := @Covers.cons before rest [] token _ (List.forall_mem_nil _) word later
  rw [gapChars, List.flatMap_nil, List.append_nil, lineBehind_token word] at step
  exact step

theorem covers_scan (before rest : List Char) :
    Covers before rest (scan (lineBehind before) rest) := by
  -- A step leaves a shorter text, whatever stands in front.
  induction length : rest.length using Nat.strong_induction_on generalizing before rest with
  | _ bound ih =>
  subst length
  cases rest with
  | nil =>
      rw [scan]
      exact @covers_openChars before none fun _ impossible =>
        absurd impossible (Option.not_mem_none _)
  | cons c rest =>
      have front := front_cons c rest
      generalize c :: rest = text at front ih
      cases front with
      | @gap gap rest proper =>
          have shorter : rest.length < (gap.chars ++ rest).length := by
            cases gap <;> simp [Gap.chars] <;> omega
          rw [scan_gap proper, ← lineBehind_append]
          exact covers_gap proper (ih _ shorter (before ++ gap.chars) rest rfl)
      | @lineComment body inside =>
          have all := dropWhile_append inside []
          rw [List.append_nil] at all
          rw [scan_lineComment, all, List.dropWhile_nil, scan]
          exact @covers_openChars before (some body) (by simpa using inside)
      | @openComment body unclosed =>
          have ending := @Covers.openComment before body [] (List.forall_mem_nil _) unclosed
          rw [gapChars, List.flatMap_nil, List.append_nil] at ending
          rw [scan_openComment (closeComment_eq_none_iff.mpr unclosed)]
          exact ending
      | @mark sign rest =>
          have noWord : (Token.mark sign).isWord = true →
              IsWordBefore (Token.mark sign).text.toList rest :=
            fun impossible => absurd impossible Bool.false_ne_true
          have step := covers_token before noWord (ih _ (Nat.lt_succ_self rest.length) _ rest rfl)
          rw [toList_mark] at step
          rw [scan_mark]
          exact step
      | @word c rest begins =>
          let text := String.ofList (c :: (spanWord rest).1)
          have written : text.toList = c :: (spanWord rest).1 := String.toList_ofList
          have found : (Token.word text).isWord = true →
              IsWordBefore (Token.word text).text.toList (spanWord rest).2 := by
            intro _
            rw [Token.text, written]
            exact isWordBefore_of_not_endsWord begins
          have shorter := Nat.lt_succ_of_le (length_spanWord_le rest)
          have step := covers_token before found (ih _ shorter _ (spanWord rest).2 rfl)
          rw [Token.text, written, List.cons_append, spanWord_eq] at step
          rw [scan_of_not_endsWord begins]
          exact step

/-! ### There is one cut -/

theorem scan_of_covers {before rest : List Char} {tokens : Tokens}
    (covers : Covers before rest tokens) : scan (lineBehind before) rest = tokens := by
  induction covers with
  | @endOfFile before gaps lineComment proper inside =>
      have found := @scan_chars (.last gaps lineComment) ⟨proper, inside⟩ (lineBehind before)
      rw [Layout.chars, Layout.lined, Layout.lineAfter] at found
      rw [found, lineBehind_append, List.count_append, count_openChars inside, Nat.add_zero]
  | @openComment before body gaps proper unclosed =>
      rw [scan_gaps proper, scan_openComment (closeComment_eq_none_iff.mpr unclosed),
        lineBehind_append, Layout.lineAfter]
  | @cons before rest gaps token tokens proper word later ih =>
      rw [← List.append_assoc, lineBehind_token word, lineBehind_append] at ih
      rw [scan_gaps proper, lineBehind_append, Layout.lineAfter, ← ih]
      cases token with
      | mark sign =>
          rw [toList_mark]
          exact scan_mark sign _ rest
      | word text =>
          have found := word rfl
          have some : text ≠ "" := by
            rintro rfl
            exact found.some rfl
          exact scan_word some (areWord_of_isWordBefore found) (stops_of_isWordBefore found) _

/-- The tokens of a text cover it, and no other tokens do. -/
theorem covers_iff (text : String) (tokens : Tokens) :
    Covers [] text.toList tokens ↔ tokens = ofText text := by
  constructor
  · intro covers
    exact (scan_of_covers covers).symm
  · rintro rfl
    exact covers_scan [] text.toList

end Tokens

end ModulePlan.Patch
