/-
Where a patch file stops being one.

A patch file that is refused is told by its first token that cannot stand where it does: the
tokens before it begin some patch file, and together with it they begin none.  The end of the
file counts as the last token.
-/

import ModulePlan.Proofs.Patch.Layout
import ModulePlan.Proofs.Patch.Prediction

namespace ModulePlan.Patch

/-! ### Printed trees -/

namespace Layout

/-- A blank before each token. -/
def spaced : List Token → Layout
  | [] => .last [] none
  | token :: rest => .next [.blank ' '] token (spaced rest)

theorem tokens_spaced (tokens : List Token) : (spaced tokens).tokens = tokens := by
  induction tokens with
  | nil => rfl
  | cons token rest ih => exact congrArg (token :: ·) ih

theorem isApart_spaced (token : Token) (rest : List Token) : IsApart token (spaced rest) := by
  cases rest with
  | nil => exact ⟨fun _ => rfl, fun _ => rfl⟩
  | cons next rest => exact ⟨fun _ => rfl, fun _ => rfl⟩

theorem isProper_spaced {tokens : List Token} (writable : ∀ token ∈ tokens, token.IsWritable) :
    (spaced tokens).IsProper := by
  induction tokens with
  | nil => exact ⟨List.forall_mem_nil _, nofun⟩
  | cons token rest ih =>
      obtain ⟨here, later⟩ := List.forall_mem_cons.mp writable
      exact ⟨by decide, here, isApart_spaced token rest, ih later⟩

theorem passes_lined (layout : Layout) :
    ∃ line, Tokens.Passes layout.tokens (layout.lined 1) (.endOfFile line) :=
  (Tokens.passes_to_end_iff _ _).mpr
    ⟨Tokens.isComplete_lined layout 1, Tokens.bare_lined layout 1⟩

end Layout

private theorem isWritable_listTokens {specialWords names : List String}
    (known : ∀ word ∈ specialWords, (Token.word word).IsWritable)
    (proper : AreProper specialWords names) : ∀ token ∈ listTokens names, token.IsWritable := by
  intro token present
  rcases Reading.origin_of_mem_listTokens present with ⟨sign, rfl⟩ | ⟨name, among, rfl⟩
  · trivial
  · rcases proper.2 name among with special | valid
    · exact known name special
    · exact Tokens.isWritable_of_valid valid

theorem Directive.isWritable_of_isProper {directive : Directive} (proper : directive.IsProper) :
    ∀ token ∈ directive.tokens, token.IsWritable := by
  cases directive with
  | addModules names =>
      exact List.forall_mem_cons.mpr ⟨by decide, isWritable_listTokens (by decide) proper⟩
  | limitModules names =>
      exact List.forall_mem_cons.mpr ⟨by decide, isWritable_listTokens (by decide) proper⟩
  | addReads names =>
      exact List.forall_mem_cons.mpr ⟨by decide, isWritable_listTokens (by decide) proper⟩
  | addExports package targets =>
      have named := Tokens.isWritable_of_valid proper.1
      exact List.forall_mem_cons.mpr ⟨by decide, List.forall_mem_cons.mpr ⟨named,
        List.forall_mem_cons.mpr ⟨by decide, isWritable_listTokens (by decide) proper.2⟩⟩⟩
  | addOpens package targets =>
      have named := Tokens.isWritable_of_valid proper.1
      exact List.forall_mem_cons.mpr ⟨by decide, List.forall_mem_cons.mpr ⟨named,
        List.forall_mem_cons.mpr ⟨by decide, isWritable_listTokens (by decide) proper.2⟩⟩⟩

theorem Declaration.isWritable_of_isProper {declaration : Declaration}
    (proper : declaration.IsProper) : ∀ token ∈ declaration.tokens, token.IsWritable := by
  intro token present
  rcases List.mem_append.mp present with front | brace
  · rcases List.mem_append.mp front with head | body
    · have named := Tokens.isWritable_of_valid proper.1
      have all : ∀ token ∈ [Token.word "patch-module", .word declaration.module,
          .mark .leftBrace], token.IsWritable :=
        List.forall_mem_cons.mpr ⟨by decide, List.forall_mem_cons.mpr ⟨named, by decide⟩⟩
      exact all token head
    · obtain ⟨directive, among, within⟩ := List.mem_flatMap.mp body
      exact Directive.isWritable_of_isProper (proper.2 directive among) token within
  · rw [List.mem_singleton.mp brace]
    trivial

def Declaration.print (declaration : Declaration) : String :=
  String.ofList (Layout.spaced declaration.tokens).chars

theorem Declaration.ofText_print {declaration : Declaration} (proper : declaration.IsProper) :
    Declaration.ofText declaration.print = .ok declaration := by
  have sound := Layout.isProper_spaced (declaration.isWritable_of_isProper proper)
  rw [Declaration.ofText_eq_ok, Declaration.print, Tokens.ofText_chars sound]
  refine ⟨Tokens.isComplete_lined _ _, proper, ?_⟩
  rw [Tokens.bare_lined, Layout.tokens_spaced]

/-! ### Sequences of tokens -/

namespace Tokens

/-- The tokens with their lines; nothing stands for the end of the file. -/
def sequence : Tokens → List (Option Token × Nat)
  | .endOfFile line => [(none, line)]
  | .openComment _ => []
  | .cons token line rest => (some token, line) :: rest.sequence

theorem sequence_of_passes {phrase : List Token} {tokens rest : Tokens}
    (passes : Passes phrase tokens rest) :
    ∃ front, tokens.sequence = front ++ rest.sequence ∧
      front.map Prod.fst = phrase.map some := by
  induction phrase generalizing tokens with
  | nil =>
      rw [passes_nil] at passes
      exact ⟨[], by rw [passes]; rfl, rfl⟩
  | cons token more ih =>
      obtain ⟨line, behind, rfl, later⟩ := passes
      obtain ⟨front, split, same⟩ := ih later
      exact ⟨(some token, line) :: front, congrArg (_ :: ·) split, congrArg (_ :: ·) same⟩

theorem passes_of_prefix {phrase : List Token} {next : Option Token} {tokens : Tokens}
    (begins : phrase.map some ++ [next] <+: tokens.sequence.map Prod.fst) :
    ∃ rest, Passes phrase tokens rest ∧ rest.head? = next := by
  induction phrase generalizing tokens with
  | nil =>
      refine ⟨tokens, rfl, ?_⟩
      cases tokens with
      | endOfFile line => exact (List.cons_prefix_cons.mp begins).1.symm
      | openComment line => exact absurd (List.prefix_nil.mp begins) (List.cons_ne_nil _ _)
      | cons token line rest => exact (List.cons_prefix_cons.mp begins).1.symm
  | cons token more ih =>
      cases tokens with
      | endOfFile line => exact nomatch (List.cons_prefix_cons.mp begins).1
      | openComment line => exact absurd (List.prefix_nil.mp begins) (List.cons_ne_nil _ _)
      | cons found line rest =>
          obtain ⟨same, later⟩ := List.cons_prefix_cons.mp begins
          obtain ⟨behind, passes, first⟩ := ih later
          exact ⟨behind, ⟨line, rest, by rw [Option.some.inj same], passes⟩, first⟩

theorem prefix_of_passes {phrase : List Token} {tokens rest : Tokens}
    (passes : Passes phrase tokens rest) :
    phrase.map some <+: tokens.sequence.map Prod.fst := by
  obtain ⟨front, split, same⟩ := sequence_of_passes passes
  rw [split, List.map_append, same]
  exact List.prefix_append _ _

/-- What a fault tells of tokens is the first of them. -/
theorem sequence_of_refuse {tokens : Tokens} (complete : tokens.isComplete = true)
    (problem : Problem) :
    ∃ rest, tokens.sequence = (tokens.head?, (Reading.refuse problem tokens).line) :: rest ∧
      (Reading.refuse problem tokens).found = tokens.head?.map Token.text := by
  cases tokens with
  | endOfFile line => exact ⟨[], rfl, rfl⟩
  | openComment line => cases complete
  | cons token line rest => exact ⟨rest.sequence, rfl, rfl⟩

end Tokens

/-- Some patch file has a sequence of tokens that begins so. -/
def Begins (front : List (Option Token)) : Prop :=
  ∃ text declaration, Declaration.ofText text = .ok declaration ∧
    front <+: (Tokens.ofText text).sequence.map Prod.fst

/-! ### The first token that does not fit -/

namespace Reading

theorem begins_of_takes {phrase more : List Token} {declaration : Declaration}
    (takes : Takes readTree (phrase ++ more) declaration) : Begins (phrase.map some) := by
  obtain ⟨line, passes⟩ := (Layout.spaced (phrase ++ more)).passes_lined
  rw [Layout.tokens_spaced] at passes
  have read : Declaration.ofTokens ((Layout.spaced (phrase ++ more)).lined 1) =
      .ok declaration := by
    rw [ofTokens_eq, takes passes]
    rfl
  obtain ⟨proper, written⟩ := Declaration.ofTokens_eq_ok.mp read
  have tokens : declaration.tokens = phrase ++ more := by
    rw [← ((Tokens.passes_to_end_iff _ _).mp written).2, Tokens.bare_lined, Layout.tokens_spaced]
  have sound := Layout.isProper_spaced (declaration.isWritable_of_isProper proper)
  refine ⟨declaration.print, declaration, Declaration.ofText_print proper, ?_⟩
  obtain ⟨rest, front, _⟩ := (Tokens.passes_append _ _ _ _).mp passes
  rw [Declaration.print, Tokens.ofText_chars sound, tokens]
  exact Tokens.prefix_of_passes front

/-- Where reading fails whatever stands behind the next token, no patch file goes on with it. -/
private theorem not_begins_of_refused {phrase : List Token} {next : Option Token}
    (refused : ∀ other otherRest, Tokens.Passes phrase other otherRest →
      otherRest.head? = next → ∃ fault, Declaration.ofTokens other = .error fault) :
    ¬Begins (phrase.map some ++ [next]) := by
  rintro ⟨text, declaration, read, begins⟩
  obtain ⟨rest, passes, first⟩ := Tokens.passes_of_prefix begins
  obtain ⟨fault, failed⟩ := refused _ rest passes first
  rw [Declaration.ofText, failed] at read
  cases read

/-- The tokens before a fault can be gone on with, but not together with the token that it
tells. -/
theorem misfit_of_ofTokens {tokens : Tokens} {fault : Fault} (complete : tokens.isComplete = true)
    (failed : Declaration.ofTokens tokens = .error fault) :
    ∃ phrase rest problem, Tokens.Passes phrase tokens rest ∧ fault = refuse problem rest ∧
      Begins (phrase.map some) ∧ ¬Begins (phrase.map some ++ [rest.head?]) := by
  have foresees := isPredictive_readTree.foresees tokens
  rw [ofTokens_eq] at failed
  cases found : readTree tokens with
  | error early =>
      rw [found] at failed
      cases failed
      obtain ⟨phrase, rest, problem, passes, told, misfits⟩ := foresees.refuses complete found
      obtain ⟨more, declaration, takes⟩ := misfits.goesOn
      refine ⟨phrase, rest, problem, passes, told, begins_of_takes takes, ?_⟩
      apply not_begins_of_refused
      intro other otherRest passesOther next
      obtain ⟨otherFault, otherFailed⟩ := misfits.refused other otherRest passesOther next
      exact ⟨otherFault, by rw [ofTokens_eq, otherFailed]; rfl⟩
  | ok read =>
      obtain ⟨declaration, rest⟩ := read
      rw [found, exceptBind_ok] at failed
      obtain ⟨phrase, passes, takes⟩ := foresees.reads found
      rw [← Tokens.isComplete_of_passes passes] at complete
      cases rest with
      | endOfFile line => cases failed
      | openComment line => cases complete
      | cons token line rest =>
          cases failed
          have whole : Takes readTree (phrase ++ []) declaration := by rwa [List.append_nil]
          refine ⟨phrase, _, _, passes, rfl, begins_of_takes whole, ?_⟩
          apply not_begins_of_refused
          intro other otherRest passesOther next
          rw [ofTokens_eq, takes passesOther, exceptBind_ok]
          cases otherRest with
          | endOfFile line => cases next
          | openComment line => cases next
          | cons token line rest => exact ⟨_, rfl⟩

end Reading

/-- The fault of a patch file stands at the first token such that no patch file begins with the
tokens up to it. -/
theorem Declaration.fault_at_first_misfit {text : String} {fault : Fault}
    (complete : (Tokens.ofText text).isComplete = true)
    (refused : Declaration.ofText text = .error fault) :
    ∃ front token rest, (Tokens.ofText text).sequence = front ++ (token, fault.line) :: rest ∧
      fault.found = token.map Token.text ∧
      Begins (front.map Prod.fst) ∧ ¬Begins (front.map Prod.fst ++ [token]) := by
  obtain ⟨phrase, rest, problem, passes, rfl, begins, ends⟩ :=
    Reading.misfit_of_ofTokens complete refused
  rw [← Tokens.isComplete_of_passes passes] at complete
  obtain ⟨front, split, same⟩ := Tokens.sequence_of_passes passes
  obtain ⟨behind, first, told⟩ := Tokens.sequence_of_refuse complete problem
  rw [← same] at begins ends
  exact ⟨front, rest.head?, behind, by rw [split, first], told, begins, ends⟩

theorem Declaration.fault_at_first_misfit_missingSeparator :
    let text := "patch-module m \x7b add-exports p to a, b\n c; \x7d"
    let fault : Fault := ⟨.missingSeparator, some "c", 2⟩
    (Tokens.ofText text).isComplete = true ∧ Declaration.ofText text = .error fault ∧
    ∃ front token rest, (Tokens.ofText text).sequence = front ++ (token, fault.line) :: rest ∧
      fault.found = token.map Token.text ∧
      Begins (front.map Prod.fst) ∧ ¬Begins (front.map Prod.fst ++ [token]) := by
  intro text fault
  have complete : (Tokens.ofText text).isComplete = true := by decide +kernel
  have refused : Declaration.ofText text = .error fault := by decide +kernel
  exact ⟨complete, refused, Declaration.fault_at_first_misfit complete refused⟩

end ModulePlan.Patch
