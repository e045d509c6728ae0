/-
Patch files with other line ends.

A carriage return before each line feed comes to stand between tokens or within comments, and it
begins no line.  So a text that is cut into tokens is cut in the same way with the returns, and
whatever is read from it, or found to be wrong with it, stays the same.
-/

import ModulePlan.Proofs.Patch.Covering

namespace ModulePlan.Patch

/-! ### Carriage returns -/

/-- A text with a carriage return put before each line feed. -/
def withReturns (cs : List Char) : List Char :=
  cs.flatMap fun c => if c = '\n' then ['\r', '\n'] else [c]

theorem withReturns_append (left right : List Char) :
    withReturns (left ++ right) = withReturns left ++ withReturns right :=
  List.flatMap_append

theorem withReturns_feed (rest : List Char) :
    withReturns ('\n' :: rest) = '\r' :: '\n' :: withReturns rest :=
  rfl

theorem withReturns_cons {c : Char} (noFeed : c ≠ '\n') (rest : List Char) :
    withReturns (c :: rest) = c :: withReturns rest := by
  unfold withReturns
  rw [List.flatMap_cons, if_neg noFeed, List.singleton_append]

theorem withReturns_of_single {cs : List Char} (single : '\n' ∉ cs) : withReturns cs = cs := by
  induction cs with
  | nil => rfl
  | cons c rest ih =>
      rw [List.mem_cons, not_or] at single
      rw [withReturns_cons (Ne.symm single.1), ih single.2]

theorem count_withReturns (cs : List Char) : (withReturns cs).count '\n' = cs.count '\n' := by
  induction cs with
  | nil => rfl
  | cons c rest ih =>
      by_cases feed : c = '\n'
      · rw [feed, withReturns_feed, List.count_cons_of_ne (by decide), List.count_cons_self,
          List.count_cons_self, ih]
      · rw [withReturns_cons feed, List.count_cons_of_ne feed, List.count_cons_of_ne feed, ih]

theorem head?_withReturns {c : Char} (noFeed : c ≠ '\n') (noReturn : c ≠ '\r')
    (cs : List Char) : (withReturns cs).head? = some c ↔ cs.head? = some c := by
  cases cs with
  | nil => exact Iff.rfl
  | cons d rest =>
      by_cases feed : d = '\n'
      · rw [feed, withReturns_feed, List.head?_cons, List.head?_cons, Option.some.injEq,
          Option.some.injEq]
        exact iff_of_false (Ne.symm noReturn) (Ne.symm noFeed)
      · rw [withReturns_cons feed, List.head?_cons, List.head?_cons]

theorem beginsComment_withReturns (cs : List Char) :
    BeginsComment (withReturns cs) ↔ BeginsComment cs := by
  cases cs with
  | nil => exact Iff.rfl
  | cons c rest =>
      unfold BeginsComment
      by_cases feed : c = '\n'
      · rw [feed, withReturns_feed]
        simp only [Tokens.pair_prefix_iff, Char.reduceEq, false_and]
      · rw [withReturns_cons feed]
        simp only [Tokens.pair_prefix_iff, head?_withReturns (c := '/') (by decide) (by decide),
          head?_withReturns (c := '*') (by decide) (by decide)]

/-- The returns neither close a comment nor keep it from being closed. -/
theorem endsComment_withReturns (cs : List Char) :
    ['*', '/'] <:+: withReturns cs ↔ ['*', '/'] <:+: cs := by
  induction cs with
  | nil => exact Iff.rfl
  | cons c rest ih =>
      by_cases feed : c = '\n'
      · rw [feed, withReturns_feed]
        simp only [List.infix_cons_iff, Tokens.pair_prefix_iff, Char.reduceEq, false_and,
          false_or, ih]
      · rw [withReturns_cons feed, List.infix_cons_iff, List.infix_cons_iff,
          Tokens.pair_prefix_iff, Tokens.pair_prefix_iff,
          head?_withReturns (by decide) (by decide), ih]

/-! ### Words and gaps -/

theorem isBoundary_withReturns {rest : List Char} (boundary : IsBoundary rest) :
    IsBoundary (withReturns rest) := by
  cases rest with
  | nil => trivial
  | cons c rest =>
      by_cases feed : c = '\n'
      · rw [feed, withReturns_feed]
        exact Or.inl (by decide)
      · have same := beginsComment_withReturns (c :: rest)
        rw [withReturns_cons feed] at same ⊢
        exact boundary.imp_right (Or.imp_right same.mpr)

/-- A word goes no further, as a return ends it before a line feed would. -/
theorem isWordBefore_withReturns {word rest : List Char} (found : IsWordBefore word rest) :
    IsWordBefore word (withReturns rest) where
  some := found.some
  whole := found.whole
  noComment := by
    intro inside within some begins
    have single : '\n' ∉ inside := by
      intro present
      exact absurd (found.whole _ (within.subset present)).1 (by decide)
    apply found.noComment inside within some
    rw [← beginsComment_withReturns, withReturns_append, withReturns_of_single single]
    exact begins
  maximal := isBoundary_withReturns found.maximal

namespace Tokens

open Layout (gapChars openChars)

/-- In front of a line feed a return is a blank of its own or the end of a line comment. -/
theorem exists_gaps_of_gap {gap : Gap} (proper : gap.IsProper) :
    ∃ gaps : List Gap, (∀ gap ∈ gaps, gap.IsProper) ∧ gapChars gaps = withReturns gap.chars := by
  cases gap with
  | blank c =>
      by_cases feed : c = '\n'
      · rw [feed]
        exact ⟨[.blank '\r', .blank '\n'], by decide, rfl⟩
      · refine ⟨[.blank c], List.forall_mem_singleton.mpr proper, ?_⟩
        rw [Gap.chars, withReturns_cons feed]
        rfl
  | blockComment body =>
      refine ⟨[.blockComment (withReturns body)], List.forall_mem_singleton.mpr ?_, ?_⟩
      · exact (endsComment_withReturns body).not.mpr proper
      · rw [Gap.chars, withReturns_cons (by decide), withReturns_cons (by decide),
          withReturns_append]
        exact List.append_nil _
  | lineComment body =>
      refine ⟨[.lineComment (body ++ ['\r'])], List.forall_mem_singleton.mpr ?_, ?_⟩
      · exact List.mem_append.not.mpr (not_or.mpr ⟨proper, by decide⟩)
      · rw [Gap.chars, withReturns_cons (by decide), withReturns_cons (by decide),
          withReturns_append, withReturns_of_single proper]
        simp [gapChars, Gap.chars, withReturns]

theorem exists_gaps {gaps : List Gap} (proper : ∀ gap ∈ gaps, gap.IsProper) :
    ∃ others : List Gap, (∀ gap ∈ others, gap.IsProper) ∧
      gapChars others = withReturns (gapChars gaps) := by
  induction gaps with
  | nil => exact ⟨[], List.forall_mem_nil _, rfl⟩
  | cons gap gaps ih =>
      obtain ⟨here, later⟩ := List.forall_mem_cons.mp proper
      obtain ⟨first, firstProper, firstSame⟩ := exists_gaps_of_gap here
      obtain ⟨rest, restProper, restSame⟩ := ih later
      refine ⟨first ++ rest, List.forall_mem_append.mpr ⟨firstProper, restProper⟩, ?_⟩
      unfold gapChars at *
      rw [List.flatMap_append, List.flatMap_cons, withReturns_append, firstSame, restSame]

/-! ### Cuts -/

theorem lineBehind_withReturns (before : List Char) :
    lineBehind (withReturns before) = lineBehind before := by
  unfold lineBehind
  rw [count_withReturns]

/-- A text with returns is cut into the same tokens on the same lines. -/
theorem covers_withReturns {before rest : List Char} {tokens : Tokens}
    (covers : Covers before rest tokens) :
    Covers (withReturns before) (withReturns rest) tokens := by
  induction covers with
  | @endOfFile before gaps lineComment proper inside =>
      obtain ⟨others, othersProper, same⟩ := exists_gaps proper
      have single : '\n' ∉ openChars lineComment := by
        rw [← List.count_eq_zero]
        exact count_openChars inside
      have step := @Covers.endOfFile (withReturns before) others lineComment othersProper inside
      rw [same, ← withReturns_of_single single, ← withReturns_append, ← withReturns_append,
        lineBehind_withReturns] at step
      exact step
  | @openComment before body gaps proper unclosed =>
      obtain ⟨others, othersProper, same⟩ := exists_gaps proper
      have step := @Covers.openComment (withReturns before) (withReturns body) others othersProper
        ((endsComment_withReturns body).not.mpr unclosed)
      rw [same, ← withReturns_append, lineBehind_withReturns] at step
      rw [withReturns_append, withReturns_cons (by decide), withReturns_cons (by decide)]
      exact step
  | @cons before rest gaps token tokens proper word later ih =>
      obtain ⟨others, othersProper, same⟩ := exists_gaps proper
      have single := not_mem_token word
      rw [withReturns_append, withReturns_append, withReturns_of_single single, ← same] at ih
      have step := @Covers.cons (withReturns before) (withReturns rest) others token tokens
        othersProper (fun isWord => isWordBefore_withReturns (word isWord)) ih
      rw [same, ← withReturns_append, lineBehind_withReturns] at step
      rw [withReturns_append, withReturns_append, withReturns_of_single single]
      exact step

end Tokens

/-- With a carriage return before each line feed, a text has the same tokens on the same lines, and
as a patch file it is the same declaration or has the same fault, with the same text in the same
line. -/
theorem ofText_withReturns (text : String) :
    Tokens.ofText (String.ofList (withReturns text.toList)) = Tokens.ofText text ∧
      Declaration.ofText (String.ofList (withReturns text.toList)) = Declaration.ofText text := by
  have covers := Tokens.covers_withReturns (Tokens.covers_scan [] text.toList)
  have same : Tokens.ofText (String.ofList (withReturns text.toList)) = Tokens.ofText text := by
    unfold Tokens.ofText
    rw [String.toList_ofList]
    exact Tokens.scan_of_covers covers
  refine ⟨same, ?_⟩
  unfold Declaration.ofText
  rw [same]

end ModulePlan.Patch
