/-
The search of the written parser for a module declaration.

A declaration seems to stand wherever, outside all brackets and behind no sign that goes on in the
next word, `module` stands before a qualified name and an opening brace, with nothing but gaps
between them.  The search finds a name exactly if one seems to be declared, and it finds the one
before which no brace opens outside all brackets.
-/

import ModulePlan.Proofs.JavaSource.Cutting

namespace ModulePlan.JavaSource

/-! ### Depths -/

namespace Token

def depthAfter (depth : Nat) : Token → Nat
  | .sign c => depthBehind depth c
  | _ => depth

def joinedAfter (joined : Bool) : Token → Bool
  | .sign c => isJoining c
  | .word _ | .literal .. => false
  | .blank _ | .lineComment _ | .blockComment _ => joined

end Token

/-- How deep within brackets the text behind some tokens is. -/
def depthOf (depth : Nat) (tokens : List Token) : Nat :=
  tokens.foldl Token.depthAfter depth

/-- Does the word behind some tokens belong to the last of them, gaps aside? -/
def joinedOf (joined : Bool) (tokens : List Token) : Bool :=
  tokens.foldl Token.joinedAfter joined

/-- The word `module` stands outside all brackets and behind no sign that goes on in it, and only
gaps stand between it, the name and the brace. -/
structure Declaration.Stands (depth : Nat) (joined : Bool) (declaration : Declaration) : Prop where
  outside : depthOf depth declaration.preamble = 0
  apart : joinedOf joined declaration.preamble = false
  gap : AreGaps declaration.gap
  name : AreGaps declaration.name.gaps
  space : AreGaps declaration.space

/-- Before a declaration no brace opens outside all brackets, as none does in gaps, imports,
annotations and the word `open`. -/
def OpensNothing (depth : Nat) (tokens : List Token) : Prop :=
  ∀ before after, tokens = before ++ .sign '\x7b' :: after → depthOf depth before ≠ 0

/-! ### Qualified names -/

theorem piece_of_isGap {token : Token} (gap : token.isGap = true) :
    token.piece = .gap token.chars := by
  cases token <;> first | rfl | cases gap

theorem qualifiedName?_gaps {gaps : List Token} (sound : AreGaps gaps) (named : Bool)
    (pending : List Char) (rest : List Piece) :
    qualifiedName? named pending (gaps.map Token.piece ++ rest) =
      qualifiedName? named (pending ++ textOf gaps) rest := by
  induction gaps generalizing pending with
  | nil =>
      change _ = qualifiedName? named (pending ++ []) rest
      rw [List.append_nil]
      rfl
  | cons token more ih =>
      obtain ⟨gap, later⟩ := List.forall_mem_cons.mp sound
      rw [List.map_cons, List.cons_append, piece_of_isGap gap, qualifiedName?, ih later]
      rw [List.append_assoc]
      rfl

theorem dropGaps_gaps {gaps : List Token} (sound : AreGaps gaps) (rest : List Piece) :
    dropGaps (gaps.map Token.piece ++ rest) = dropGaps rest := by
  refine List.dropWhile_append_of_pos fun piece present => ?_
  obtain ⟨token, among, rfl⟩ := List.mem_map.mp present
  rw [piece_of_isGap (sound token among)]

theorem qualifiedName?_further {further : Further} (sound : AreGaps further.gaps)
    (rest : List Piece) :
    qualifiedName? true [] (further.tokens.map Token.piece ++ rest) =
      (qualifiedName? true [] rest).map (textOf further.tokens ++ ·) := by
  obtain ⟨before, after⟩ := areGaps_append.mp sound
  have text : textOf further.tokens =
      textOf further.before ++ ['.'] ++ textOf further.after ++ further.identifier := by
    simp [Further.tokens, textOf, Token.chars]
  have laidOut : further.tokens.map Token.piece ++ rest =
      further.before.map Token.piece ++ .sign '.' ::
        (further.after.map Token.piece ++ .word further.identifier :: rest) := by
    simp [Further.tokens, Token.piece]
  rw [laidOut, qualifiedName?_gaps before, List.nil_append]
  change qualifiedName? false (textOf further.before ++ ['.']) _ = _
  rw [qualifiedName?_gaps after, text]
  rfl

theorem qualifiedName?_brace {space : List Token} (sound : AreGaps space) (rest : List Piece) :
    qualifiedName? true [] (space.map Token.piece ++ .sign '\x7b' :: rest) = some [] := by
  rw [qualifiedName?_gaps sound]
  rfl

theorem qualifiedName?_others {others : List Further}
    (sound : AreGaps (others.flatMap Further.gaps)) {rest : List Piece}
    (ends : qualifiedName? true [] rest = some []) :
    qualifiedName? true [] ((others.flatMap Further.tokens).map Token.piece ++ rest) =
      some (textOf (others.flatMap Further.tokens)) := by
  induction others with
  | nil => exact ends
  | cons further more ih =>
      rw [List.flatMap_cons] at sound
      obtain ⟨here, later⟩ := areGaps_append.mp sound
      rw [List.flatMap_cons, List.map_append, List.append_assoc, qualifiedName?_further here,
        ih later, textOf_append]
      rfl

/-- A qualified name that a brace follows is read as it is written. -/
theorem qualifiedName?_name {declaration : Declaration} {depth : Nat} {joined : Bool}
    (stands : declaration.Stands depth joined) :
    qualifiedName? false [] (dropGaps ((declaration.gap ++ (declaration.name.tokens ++
      (declaration.space ++ .sign '\x7b' :: declaration.rest))).map Token.piece)) =
      some (textOf declaration.name.tokens) := by
  have ends := qualifiedName?_brace stands.space (declaration.rest.map Token.piece)
  have later := qualifiedName?_others stands.name ends
  rw [List.map_append, dropGaps_gaps stands.gap, List.map_append, List.map_append]
  change (qualifiedName? true [] ((declaration.name.others.flatMap Further.tokens).map
    Token.piece ++ (declaration.space.map Token.piece ++ .sign '\x7b' ::
      declaration.rest.map Token.piece))).map (declaration.name.first ++ ·) = _
  rw [later]
  rfl

/-- These tokens are a qualified name that a brace follows, with gaps before and behind it. -/
def Names (tokens : List Token) : Prop :=
  ∃ gap name space rest, AreGaps gap ∧ AreGaps (QualifiedName.gaps name) ∧ AreGaps space ∧
    tokens = gap ++ (name.tokens ++ (space ++ .sign '\x7b' :: rest))

/-- These tokens go on a qualified name up to a brace. -/
def GoesOn (tokens : List Token) : Prop :=
  ∃ others space rest, AreGaps (List.flatMap Further.gaps others) ∧ AreGaps space ∧
    tokens = others.flatMap Further.tokens ++ (space ++ .sign '\x7b' :: rest)

theorem goesOn_and_names {tokens : List Token} :
    (∀ pending text, qualifiedName? true pending (tokens.map Token.piece) = some text →
      GoesOn tokens) ∧
    ∀ pending text, qualifiedName? false pending (tokens.map Token.piece) = some text →
      Names tokens := by
  induction tokens with
  | nil => exact ⟨nofun, nofun⟩
  | cons token rest ih =>
      obtain ⟨goesOn, names⟩ := ih
      by_cases gap : token.isGap = true
      · rw [List.map_cons, piece_of_isGap gap]
        constructor
        · intro pending text found
          obtain ⟨others, space, after, sound, ends, rfl⟩ := goesOn _ _ found
          cases others with
          | nil =>
              exact ⟨[], token :: space, after, sound, List.forall_mem_cons.mpr ⟨gap, ends⟩, rfl⟩
          | cons further more =>
              exact ⟨{ further with before := token :: further.before } :: more, space, after,
                List.forall_mem_cons.mpr ⟨gap, sound⟩, ends, rfl⟩
        · intro pending text found
          obtain ⟨first, name, space, after, before, sound, ends, rfl⟩ := names _ _ found
          exact ⟨token :: first, name, space, after, List.forall_mem_cons.mpr ⟨gap, before⟩, sound,
            ends, rfl⟩
      · cases token with
        | word text =>
            refine ⟨nofun, fun pending whole found => ?_⟩
            obtain ⟨later, read, _⟩ := Option.map_eq_some_iff.mp found
            obtain ⟨others, space, after, sound, ends, rfl⟩ := goesOn _ _ read
            exact ⟨[], ⟨text, others⟩, space, after, List.forall_mem_nil _, sound, ends, rfl⟩
        | sign c =>
            refine ⟨fun pending text found => ?_, nofun⟩
            change (if c = '.' then _ else if c = '\x7b' then _ else none) = _ at found
            split at found
            · rename_i dot
              obtain ⟨first, name, space, after, before, sound, ends, rfl⟩ := names _ _ found
              refine ⟨⟨[], first, name.first⟩ :: name.others, space, after,
                areGaps_append.mpr ⟨before, sound⟩, ends, ?_⟩
              simp [dot, QualifiedName.tokens, Further.tokens]
            · split at found
              · rename_i brace
                rw [brace]
                exact ⟨[], [], rest, List.forall_mem_nil _, List.forall_mem_nil _, rfl⟩
              · cases found
        | literal mark body => exact ⟨nofun, nofun⟩
        | _ => exact absurd rfl gap

/-- The gaps before a name do not decide whether there is one. -/
theorem qualifiedName?_dropGaps (pending : List Char) (parts : List Piece) :
    qualifiedName? false pending parts = none ↔
      qualifiedName? false [] (dropGaps parts) = none := by
  induction parts generalizing pending with
  | nil => exact Iff.rfl
  | cons part rest ih =>
      cases part with
      | gap text => exact ih (pending ++ text)
      | word text =>
          change Option.map _ _ = none ↔ Option.map _ _ = none
          rw [Option.map_eq_none_iff, Option.map_eq_none_iff]
      | sign c => exact Iff.rfl
      | literal => exact Iff.rfl

theorem names_of_dropGaps {tokens : List Token}
    (found : qualifiedName? false [] (dropGaps (tokens.map Token.piece)) ≠ none) :
    Names tokens := by
  have read := mt (qualifiedName?_dropGaps [] (tokens.map Token.piece)).mp found
  obtain ⟨text, same⟩ := Option.ne_none_iff_exists'.mp read
  exact goesOn_and_names.2 [] text same

/-! ### The search for a declaration -/

theorem opensNothing_cons {depth : Nat} {token : Token} {rest : List Token} :
    OpensNothing depth (token :: rest) ↔
      (token = .sign '\x7b' → depth ≠ 0) ∧ OpensNothing (token.depthAfter depth) rest := by
  constructor
  · intro opens
    refine ⟨?_, ?_⟩
    · rintro rfl
      exact opens [] rest rfl
    · rintro before after rfl
      exact opens (token :: before) after rfl
  · rintro ⟨here, later⟩ before after same
    cases before with
    | nil =>
        cases same
        exact here rfl
    | cons first more =>
        cases same
        exact later more after rfl

/-- Two words with only gaps between them are parts of no name, and no brace stops before them. -/
theorem qualifiedName?_words {preamble gap : List Token} (opens : OpensNothing 0 preamble)
    (sound : AreGaps gap) (first second : List Char) (rest : List Token) (named : Bool)
    (pending : List Char) :
    qualifiedName? named pending
      ((preamble ++ .word first :: (gap ++ .word second :: rest)).map Token.piece) = none := by
  induction preamble generalizing named pending with
  | nil =>
      cases named with
      | true => rfl
      | false =>
          change (qualifiedName? true [] ((gap ++ _).map Token.piece)).map _ = none
          rw [List.map_append, qualifiedName?_gaps sound]
          rfl
  | cons token more ih =>
      obtain ⟨here, later⟩ := opensNothing_cons.mp opens
      cases token with
      | blank | lineComment | blockComment => exact ih later named _
      | word text =>
          cases named with
          | true => rfl
          | false => exact Option.map_eq_none_iff.mpr (ih later true [])
      | literal mark body => rfl
      | sign c =>
          cases named with
          | false => rfl
          | true =>
              change (if c = '.' then _ else if c = '\x7b' then _ else none) = _
              split
              · rename_i dot
                rw [dot] at later
                exact ih later false _
              · split
                · rename_i brace
                  rw [brace] at here
                  exact absurd rfl (here rfl)
                · rfl

/-- What stands in front decides: either a declaration begins here, or one is looked for behind
it. -/
theorem writtenName?_piece (depth : Nat) (joined : Bool) (token : Token) (rest : List Piece) :
    writtenName? depth joined (token.piece :: rest) =
      (if depth = 0 ∧ joined = false ∧ token = .word "module".toList then
        qualifiedName? false [] (dropGaps rest) else none).or
      (writtenName? (token.depthAfter depth) (token.joinedAfter joined) rest) := by
  cases token with
  | word text =>
      have begins : (decide (depth = 0) && !joined && decide (text = "module".toList)) = true ↔
          depth = 0 ∧ joined = false ∧ Token.word text = .word "module".toList := by
        rw [Bool.and_eq_true, Bool.and_eq_true, decide_eq_true_iff, decide_eq_true_iff,
          Bool.not_eq_true', and_assoc, Token.word.injEq]
      rw [Token.piece, writtenName?, if_congr begins rfl rfl]
      generalize (if depth = 0 ∧ joined = false ∧ Token.word text = .word "module".toList then
        qualifiedName? false [] (dropGaps rest) else none) = found
      cases found <;> rfl
  | _ =>
      rw [if_neg (by rintro ⟨_, _, impossible⟩; cases impossible)]
      rfl

/-- A declaration seems to stand among the tokens. -/
def SeemsDeclared (depth : Nat) (joined : Bool) (tokens : List Token) : Prop :=
  ∃ declaration : Declaration, tokens = declaration.tokens ∧ declaration.Stands depth joined

theorem seemsDeclared_cons {depth : Nat} {joined : Bool} {token : Token} {rest : List Token} :
    SeemsDeclared depth joined (token :: rest) ↔
      (depth = 0 ∧ joined = false ∧ token = .word "module".toList ∧ Names rest) ∨
        SeemsDeclared (token.depthAfter depth) (token.joinedAfter joined) rest := by
  constructor
  · rintro ⟨⟨preamble, gap, name, space, after⟩, same, stands⟩
    cases preamble with
    | nil =>
        cases same
        exact Or.inl ⟨stands.outside, stands.apart, rfl, gap, name, space, after, stands.gap,
          stands.name, stands.space, rfl⟩
    | cons first more =>
        cases same
        exact Or.inr ⟨⟨more, gap, name, space, after⟩, rfl, stands.outside, stands.apart,
          stands.gap, stands.name, stands.space⟩
  · rintro (⟨outside, apart, rfl, gap, name, space, after, before, sound, ends, rfl⟩ |
      ⟨⟨preamble, gap, name, space, after⟩, rfl, stands⟩)
    · exact ⟨⟨[], gap, name, space, after⟩, rfl, outside, apart, before, sound, ends⟩
    · exact ⟨⟨token :: preamble, gap, name, space, after⟩, rfl, stands.outside, stands.apart,
        stands.gap, stands.name, stands.space⟩

theorem names_iff {tokens : List Token} :
    qualifiedName? false [] (dropGaps (tokens.map Token.piece)) ≠ none ↔ Names tokens := by
  constructor
  · exact names_of_dropGaps
  · rintro ⟨gap, name, space, rest, before, sound, ends, rfl⟩
    have stands : Declaration.Stands 0 false ⟨[], gap, name, space, rest⟩ :=
      ⟨rfl, rfl, before, sound, ends⟩
    rw [qualifiedName?_name stands]
    exact Option.some_ne_none _

/-- No name is found exactly where none seems to be declared. -/
theorem writtenName?_eq_none_iff {depth : Nat} {joined : Bool} {tokens : List Token} :
    writtenName? depth joined (tokens.map Token.piece) = none ↔
      ¬SeemsDeclared depth joined tokens := by
  induction tokens generalizing depth joined with
  | nil =>
      refine ⟨?_, fun _ => rfl⟩
      rintro _ ⟨⟨preamble, _⟩, same, _⟩
      cases preamble <;> cases same
  | cons token rest ih =>
      rw [List.map_cons, writtenName?_piece, Option.or_eq_none_iff, ih, seemsDeclared_cons, not_or]
      refine and_congr_left fun _ => ?_
      rw [ite_eq_right_iff, ← names_iff]
      constructor
      · rintro silent ⟨outside, apart, same, named⟩
        exact named (silent ⟨outside, apart, same⟩)
      · rintro unnamed ⟨outside, apart, same⟩
        exact not_not.mp fun named => unnamed ⟨outside, apart, same, named⟩

/-- A declaration is found if no brace opens before it outside all brackets.  The induction is on
what stands before it: an earlier word `module` is followed by two words in a row. -/
theorem writtenName?_of_opensNothing {preamble gap space rest : List Token} {name : QualifiedName}
    {depth : Nat} {joined : Bool}
    (stands : Declaration.Stands depth joined ⟨preamble, gap, name, space, rest⟩)
    (opens : OpensNothing depth preamble) :
    writtenName? depth joined
      ((Declaration.tokens ⟨preamble, gap, name, space, rest⟩).map Token.piece) =
      some (textOf name.tokens) := by
  induction preamble generalizing depth joined with
  | nil =>
      refine (writtenName?_piece depth joined (.word "module".toList) _).trans ?_
      rw [if_pos ⟨stands.outside, stands.apart, rfl⟩]
      exact congrArg (Option.or · _) (qualifiedName?_name stands)
  | cons token more ih =>
      have behind := (opensNothing_cons.mp opens).2
      refine (writtenName?_piece depth joined token _).trans ?_
      rw [ite_eq_right_iff.mpr, Option.none_or]
      · exact ih ⟨stands.outside, stands.apart, stands.gap, stands.name, stands.space⟩ behind
      · rintro ⟨rfl, _, rfl⟩
        exact (qualifiedName?_dropGaps [] _).mp
          (qualifiedName?_words behind stands.gap _ name.first _ false [])

end ModulePlan.JavaSource
