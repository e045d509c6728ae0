/-
What leads to a module declaration.

In gaps, imports, annotations and the word `open`, brackets are balanced, no brace opens outside all
brackets, and no sign at the end goes on in the next word.
-/

import ModulePlan.Proofs.JavaSource.Search

namespace ModulePlan.JavaSource

/-! ### Depths -/

theorem depthOf_append (depth : Nat) (first second : List Token) :
    depthOf depth (first ++ second) = depthOf (depthOf depth first) second :=
  List.foldl_append

theorem joinedOf_append (joined : Bool) (first second : List Token) :
    joinedOf joined (first ++ second) = joinedOf (joinedOf joined first) second :=
  List.foldl_append

theorem depthAfter_of_plain {token : Token} (plain : token.isBracket = false) (depth : Nat) :
    token.depthAfter depth = depth := by
  cases token with
  | sign c =>
      simp only [Token.isBracket, bracketPairs, List.any_cons, List.any_nil, Bool.or_false,
        Bool.or_eq_false_iff, decide_eq_false_iff_not] at plain
      obtain ⟨⟨round, roundEnd⟩, ⟨square, squareEnd⟩, curly, curlyEnd⟩ := plain
      simp [Token.depthAfter, depthBehind, round, roundEnd, square, squareEnd, curly, curlyEnd]
  | _ => rfl

theorem depthBehind_of_pair {opening closing : Char} (pair : (opening, closing) ∈ bracketPairs)
    (depth : Nat) :
    depthBehind depth opening = depth + 1 ∧ depthBehind (depth + 1) closing = depth := by
  simp only [bracketPairs, List.mem_cons, Prod.mk.injEq, List.not_mem_nil, or_false] at pair
  rcases pair with ⟨rfl, rfl⟩ | ⟨rfl, rfl⟩ | ⟨rfl, rfl⟩ <;> exact ⟨rfl, rfl⟩

theorem depthOf_of_balanced {tokens : List Token} (balanced : IsBalanced tokens) (depth : Nat) :
    depthOf depth tokens = depth := by
  induction balanced generalizing depth with
  | nil => rfl
  | plain unlike _ ih =>
      change depthOf (Token.depthAfter depth _) _ = depth
      rw [depthAfter_of_plain unlike, ih]
  | group pair _ _ inner ih =>
      obtain ⟨opens, closes⟩ := depthBehind_of_pair pair depth
      change depthOf (depthBehind depth _) _ = depth
      rw [opens, depthOf_append, inner]
      change depthOf (depthBehind (depth + 1) _) _ = depth
      rw [closes, ih]

theorem isBalanced_of_plain {tokens : List Token}
    (plain : ∀ token ∈ tokens, token.isBracket = false) : IsBalanced tokens := by
  induction tokens with
  | nil => exact .nil
  | cons token rest ih =>
      obtain ⟨here, later⟩ := List.forall_mem_cons.mp plain
      exact .plain here (ih later)

/-! ### What leads to a declaration -/

theorem opensNothing_append {depth : Nat} {first second : List Token}
    (left : OpensNothing depth first) (right : OpensNothing (depthOf depth first) second) :
    OpensNothing depth (first ++ second) := by
  induction first generalizing depth with
  | nil => exact right
  | cons token rest ih =>
      obtain ⟨here, later⟩ := opensNothing_cons.mp left
      exact opensNothing_cons.mpr ⟨here, ih later right⟩

theorem opensNothing_nil (depth : Nat) : OpensNothing depth [] := by
  intro before after same
  cases before <;> cases same

theorem opensNothing_of_plain {tokens : List Token}
    (plain : ∀ token ∈ tokens, token.isBracket = false) (depth : Nat) :
    OpensNothing depth tokens := by
  rintro before after rfl
  exact absurd (plain _ (List.mem_append_right before List.mem_cons_self)) (by decide)

/-- Within brackets no brace opens outside all brackets. -/
theorem opensNothing_of_balanced {tokens : List Token} (balanced : IsBalanced tokens)
    (depth : Nat) : OpensNothing (depth + 1) tokens := by
  induction balanced generalizing depth with
  | nil => exact opensNothing_nil _
  | plain unlike _ ih =>
      refine opensNothing_cons.mpr ⟨fun _ => Nat.succ_ne_zero depth, ?_⟩
      rw [depthAfter_of_plain unlike]
      exact ih depth
  | @group opening closing inside rest pair within _ inner ih =>
      refine opensNothing_cons.mpr ⟨fun _ => Nat.succ_ne_zero depth, ?_⟩
      change OpensNothing (depthBehind (depth + 1) opening) _
      rw [(depthBehind_of_pair pair _).1]
      refine opensNothing_append (inner (depth + 1)) ?_
      rw [depthOf_of_balanced within]
      refine opensNothing_cons.mpr ⟨fun _ => Nat.succ_ne_zero (depth + 1), ?_⟩
      change OpensNothing (depthBehind (depth + 1 + 1) closing) rest
      rw [(depthBehind_of_pair pair _).2]
      exact ih depth

/-- Behind these tokens a declaration may stand. -/
structure Leads (tokens : List Token) : Prop where
  outside : depthOf 0 tokens = 0
  apart : joinedOf false tokens = false
  opens : OpensNothing 0 tokens

theorem leads_append {first second : List Token} (left : Leads first) (right : Leads second) :
    Leads (first ++ second) where
  outside := by rw [depthOf_append, left.outside, right.outside]
  apart := by rw [joinedOf_append, left.apart, right.apart]
  opens := by
    refine opensNothing_append left.opens ?_
    rw [left.outside]
    exact right.opens

theorem leads_of_plain {tokens : List Token} (plain : ∀ token ∈ tokens, token.isBracket = false)
    (apart : joinedOf false tokens = false) : Leads tokens where
  outside := depthOf_of_balanced (isBalanced_of_plain plain) 0
  apart := apart
  opens := opensNothing_of_plain plain 0

theorem leads_importing {imported : List Token}
    (plain : ∀ token ∈ imported, token.isBracket = false) :
    Leads (.word "import".toList :: (imported ++ [.sign ';'])) := by
  refine leads_of_plain ?_ ?_
  · refine List.forall_mem_cons.mpr ⟨rfl, List.forall_mem_append.mpr ⟨plain, ?_⟩⟩
    exact List.forall_mem_singleton.mpr rfl
  · change joinedOf false (imported ++ [.sign ';']) = false
    rw [joinedOf_append]
    rfl

theorem isBracket_of_isGap {token : Token} (gap : token.isGap = true) :
    token.isBracket = false := by
  cases token <;> first | rfl | cases gap

theorem isBracket_of_name {name : QualifiedName} (gaps : AreGaps name.gaps) :
    ∀ token ∈ name.tokens, token.isBracket = false := by
  refine List.forall_mem_cons.mpr ⟨rfl, fun token present => ?_⟩
  obtain ⟨further, among, inside⟩ := List.mem_flatMap.mp present
  have sound : AreGaps further.gaps :=
    fun gap here => gaps gap (List.mem_flatMap.mpr ⟨further, among, here⟩)
  obtain ⟨before, after⟩ := areGaps_append.mp sound
  simp only [Further.tokens, List.mem_append, List.mem_cons, List.not_mem_nil, or_false] at inside
  rcases inside with gap | rfl | gap | rfl
  · exact isBracket_of_isGap (before token gap)
  · rfl
  · exact isBracket_of_isGap (after token gap)
  · rfl

theorem joinedOf_name (joined : Bool) (name : QualifiedName) :
    joinedOf joined name.tokens = false := by
  change joinedOf false (name.others.flatMap Further.tokens) = false
  induction name.others with
  | nil => rfl
  | cons further rest ih =>
      have word : joinedOf false further.tokens = false := by
        change joinedOf false (further.before ++ ([.sign '.'] ++ (further.after ++ [.word _]))) = _
        rw [joinedOf_append, joinedOf_append, joinedOf_append]
        rfl
      rw [List.flatMap_cons, joinedOf_append, word, ih]

theorem leads_marked {gap : List Token} {name : QualifiedName} (gaps : AreGaps gap)
    (named : AreGaps name.gaps) : Leads (.sign '@' :: (gap ++ name.tokens)) := by
  refine leads_of_plain ?_ ?_
  · refine List.forall_mem_cons.mpr ⟨rfl, List.forall_mem_append.mpr ⟨?_, ?_⟩⟩
    · exact fun token present => isBracket_of_isGap (gaps token present)
    · exact isBracket_of_name named
  · change joinedOf true (gap ++ name.tokens) = false
    rw [joinedOf_append, joinedOf_name]

theorem leads_arguments {inside : List Token} (balanced : IsBalanced inside) :
    Leads (.sign '(' :: (inside ++ [.sign ')'])) where
  outside := by
    change depthOf 1 (inside ++ [.sign ')']) = 0
    rw [depthOf_append, depthOf_of_balanced balanced]
    rfl
  apart := by
    change joinedOf false (inside ++ [.sign ')']) = false
    rw [joinedOf_append]
    rfl
  opens := by
    refine opensNothing_cons.mpr ⟨fun other => absurd other (by decide), ?_⟩
    refine opensNothing_append (opensNothing_of_balanced balanced 0) ?_
    exact opensNothing_cons.mpr ⟨fun other => absurd other (by decide), opensNothing_nil _⟩

/-- Behind whatever may stand before a declaration, one may stand. -/
theorem leads_of_isPreamble {tokens : List Token} (preamble : IsPreamble tokens) :
    Leads tokens := by
  induction preamble with
  | nil =>
      exact leads_of_plain (List.forall_mem_nil _) rfl
  | @gap token rest gap _ ih =>
      have alone : joinedOf false [token] = false := by
        cases token <;> first | rfl | cases gap
      have plain : ∀ other ∈ [token], other.isBracket = false :=
        List.forall_mem_singleton.mpr (isBracket_of_isGap gap)
      exact leads_append (leads_of_plain plain alone) ih
  | @opening rest _ ih =>
      have plain : ∀ token ∈ [Token.word "open".toList], token.isBracket = false :=
        List.forall_mem_singleton.mpr rfl
      exact leads_append (leads_of_plain plain rfl) ih
  | @importing imported rest plain _ ih =>
      have both := leads_append (leads_importing plain) ih
      rwa [List.cons_append, List.append_assoc] at both
  | @marked gap name rest gaps named _ ih =>
      have both := leads_append (leads_marked gaps named) ih
      rwa [List.cons_append, List.append_assoc] at both
  | @arguments inside rest balanced _ ih =>
      have both := leads_append (leads_arguments balanced) ih
      rwa [List.cons_append, List.append_assoc] at both

end ModulePlan.JavaSource
