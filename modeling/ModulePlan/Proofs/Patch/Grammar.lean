/-
The grammar of patch files.

The grammar is written here from the tree to the tokens.  Reading a patch file goes the
other way: it succeeds exactly on the tokens of a proper tree, and gives that tree.
-/

import ModulePlan.Patch.Declaration
import ModulePlan.Proofs.Report

namespace ModulePlan.Patch

/-! ### The grammar -/

/-- The names of a list are valid or among its special words, and there is at least one. -/
def AreProper (specialWords names : List String) : Prop :=
  names ≠ [] ∧ ∀ name ∈ names, name ∈ specialWords ∨ isValidName name = true

def listTokens (names : List String) : List Token :=
  (names.map Token.word).intersperse (.mark .comma) ++ [.mark .semicolon]

def Directive.tokens : Directive → List Token
  | .addModules names => .word "add-modules" :: listTokens names
  | .limitModules names => .word "limit-modules" :: listTokens names
  | .addReads names => .word "add-reads" :: listTokens names
  | .addExports package targets =>
    [.word "add-exports", .word package, .word "to"] ++ listTokens targets
  | .addOpens package targets =>
    [.word "add-opens", .word package, .word "to"] ++ listTokens targets

def Directive.IsProper : Directive → Prop
  | .addModules names => AreProper ["ALL-MODULE-PATH", "TEST-MODULE-PATH"] names
  | .limitModules names => AreProper [] names
  | .addReads names => AreProper ["TEST-MODULE-PATH"] names
  | .addExports package targets =>
    isValidName package = true ∧ AreProper ["ALL-UNNAMED", "TEST-MODULE-PATH"] targets
  | .addOpens package targets => isValidName package = true ∧ AreProper [] targets

def Declaration.tokens (declaration : Declaration) : List Token :=
  [.word "patch-module", .word declaration.module, .mark .leftBrace] ++
    declaration.directives.flatMap Directive.tokens ++ [.mark .rightBrace]

def Declaration.IsProper (declaration : Declaration) : Prop :=
  isValidName declaration.module = true ∧
    ∀ directive ∈ declaration.directives, directive.IsProper

namespace Tokens

def bare (tokens : Tokens) : List Token :=
  tokens.toList.map Prod.fst

def isComplete : Tokens → Bool
  | .endOfFile _ => true
  | .openComment _ => false
  | .cons _ _ rest => rest.isComplete

/-- The tokens begin with the given ones, and these others are behind them. -/
def Passes : List Token → Tokens → Tokens → Prop
  | [], tokens, after => tokens = after
  | token :: more, tokens, after =>
    ∃ line rest, tokens = .cons token line rest ∧ Passes more rest after

@[simp] theorem passes_nil (tokens after : Tokens) : Passes [] tokens after ↔ tokens = after :=
  Iff.rfl

@[simp] theorem passes_cons (token : Token) (more : List Token) (found : Token) (line : Nat)
    (rest after : Tokens) :
    Passes (token :: more) (.cons found line rest) after ↔
      found = token ∧ Passes more rest after := by
  constructor
  · intro given
    rcases given with ⟨line', rest', same, passes⟩
    cases same
    exact ⟨rfl, passes⟩
  · intro given
    rcases given with ⟨rfl, passes⟩
    exact ⟨line, rest, rfl, passes⟩

@[simp] theorem not_passes_endOfFile (token : Token) (more : List Token) (line : Nat)
    (after : Tokens) : ¬ Passes (token :: more) (.endOfFile line) after := by
  intro given
  rcases given with ⟨_, _, same, _⟩
  cases same

@[simp] theorem not_passes_openComment (token : Token) (more : List Token) (line : Nat)
    (after : Tokens) : ¬ Passes (token :: more) (.openComment line) after := by
  intro given
  rcases given with ⟨_, _, same, _⟩
  cases same

theorem passes_append (first second : List Token) (tokens after : Tokens) :
    Passes (first ++ second) tokens after ↔
      ∃ middle, Passes first tokens middle ∧ Passes second middle after := by
  induction first generalizing tokens with
  | nil => simp
  | cons token more ih =>
      constructor
      · intro given
        rcases given with ⟨line, rest, same, passes⟩
        obtain ⟨middle, before, behind⟩ := (ih rest).mp passes
        exact ⟨middle, ⟨line, rest, same, before⟩, behind⟩
      · intro given
        rcases given with ⟨middle, ⟨line, rest, same, before⟩, behind⟩
        exact ⟨line, rest, same, (ih rest).mpr ⟨middle, before, behind⟩⟩

/-- Nothing but the end of the file is behind exactly the tokens of a complete file. -/
theorem passes_to_end_iff (expected : List Token) (tokens : Tokens) :
    (∃ line, Passes expected tokens (.endOfFile line)) ↔
      tokens.isComplete = true ∧ tokens.bare = expected := by
  induction tokens generalizing expected with
  | endOfFile line =>
      cases expected <;> simp [isComplete, bare, toList]
  | openComment line =>
      cases expected <;> simp [isComplete]
  | cons token line rest ih =>
      cases expected with
      | nil => simp [bare, toList]
      | cons first more =>
          have later := ih more
          simp only [bare] at later
          simp only [passes_cons, isComplete, bare, toList, List.map_cons, List.cons.injEq]
          rw [exists_and_left, later]
          exact and_left_comm

end Tokens

/-! ### Reading the parts -/

namespace Reading

theorem expectWord_eq_ok {word : String} {tokens after : Tokens} :
    expectWord word tokens = .ok after ↔ Tokens.Passes [.word word] tokens after := by
  unfold expectWord
  split
  · rename_i text line rest
    by_cases same : text = word
    · simp [same]
    · simp [same]
  · rename_i other
    constructor
    · intro read
      cases read
    · intro given
      rcases given with ⟨line, rest, rfl, _⟩
      exact absurd rfl (other _ _ _)

theorem expectMark_eq_ok {mark : Mark} {tokens after : Tokens} :
    expectMark mark tokens = .ok after ↔ Tokens.Passes [.mark mark] tokens after := by
  unfold expectMark
  split
  · rename_i found line rest
    by_cases same : found = mark
    · simp [same]
    · simp [same]
  · rename_i other
    constructor
    · intro read
      cases read
    · intro given
      rcases given with ⟨line, rest, rfl, _⟩
      exact absurd rfl (other _ _ _)

theorem readName_eq_ok {kind : NameKind} {specialWords : List String} {tokens after : Tokens}
    {name : String} :
    readName kind specialWords tokens = .ok (name, after) ↔
      (name ∈ specialWords ∨ isValidName name = true) ∧
        Tokens.Passes [.word name] tokens after := by
  unfold readName
  split
  · rename_i text line rest
    by_cases allowed : text ∈ specialWords ∨ isValidName text = true
    · have taken : (text ∈ specialWords || isValidName text) = true := by simpa using allowed
      rw [if_pos taken]
      constructor
      · intro read
        cases read
        exact ⟨allowed, by simp⟩
      · intro given
        rcases given with ⟨_, passes⟩
        simp only [Tokens.passes_cons, Tokens.passes_nil, Token.word.injEq] at passes
        rw [passes.1, passes.2]
    · have refused : ¬ (text ∈ specialWords || isValidName text) = true := by simpa using allowed
      rw [if_neg refused]
      constructor
      · intro read
        cases read
      · intro given
        rcases given with ⟨found, passes⟩
        simp only [Tokens.passes_cons, Tokens.passes_nil, Token.word.injEq] at passes
        rw [← passes.1] at found
        exact absurd found allowed
  · rename_i other
    constructor
    · intro read
      cases read
    · intro given
      rcases given with ⟨_, line, rest, rfl, _⟩
      exact absurd rfl (other _ _ _)

private theorem areProper_cons {specialWords : List String} {name : String}
    (allowed : name ∈ specialWords ∨ isValidName name = true) (names : List String) :
    AreProper specialWords (name :: names) ↔ names = [] ∨ AreProper specialWords names := by
  cases names with
  | nil => simp [AreProper, allowed]
  | cons second more => simp [AreProper, allowed]

private theorem listTokens_singleton (name : String) :
    listTokens [name] = [.word name, .mark .semicolon] :=
  rfl

private theorem listTokens_cons {names : List String} (some : names ≠ []) (name : String) :
    listTokens (name :: names) = .word name :: .mark .comma :: listTokens names := by
  cases names with
  | nil => exact absurd rfl some
  | cons second more => rfl

theorem word_mem_listTokens {names : List String} {name : String} (present : name ∈ names) :
    Token.word name ∈ listTokens names := by
  induction names with
  | nil => cases present
  | cons first rest ih =>
      rcases List.mem_cons.mp present with rfl | later
      · cases rest with
        | nil => exact List.mem_cons_self
        | cons second more => exact List.mem_cons_self
      · rw [listTokens_cons (List.ne_nil_of_mem later)]
        exact List.mem_cons_of_mem _ (List.mem_cons_of_mem _ (ih later))

theorem origin_of_mem_listTokens {names : List String} {token : Token}
    (present : token ∈ listTokens names) :
    (∃ sign, token = .mark sign) ∨ ∃ name ∈ names, token = .word name := by
  induction names with
  | nil => exact Or.inl ⟨.semicolon, List.mem_singleton.mp present⟩
  | cons first rest ih =>
      by_cases last : rest = []
      · rw [last, listTokens_singleton] at present
        rcases List.mem_pair.mp present with rfl | rfl
        · exact Or.inr ⟨first, List.mem_cons_self, rfl⟩
        · exact Or.inl ⟨.semicolon, rfl⟩
      · rw [listTokens_cons last] at present
        rcases List.mem_cons.mp present with rfl | present
        · exact Or.inr ⟨first, List.mem_cons_self, rfl⟩
        rcases List.mem_cons.mp present with rfl | later
        · exact Or.inl ⟨.comma, rfl⟩
        · refine (ih later).imp_right ?_
          rintro ⟨name, among, same⟩
          exact ⟨name, List.mem_cons_of_mem _ among, same⟩

theorem readNames_sound {specialWords : List String} {tokens after : Tokens}
    {names : List String} (read : readNames specialWords tokens = .ok (names, after)) :
    AreProper specialWords names ∧ Tokens.Passes (listTokens names) tokens after := by
  fun_induction readNames specialWords tokens generalizing names with
  | case1 text line allowed line' rest =>
      cases read
      have named : text ∈ specialWords ∨ isValidName text = true := by simpa using allowed
      exact ⟨(areProper_cons named []).mpr (.inl rfl), by simp [listTokens_singleton]⟩
  | case2 text line allowed line' more found rest again ih =>
      cases read
      have named : text ∈ specialWords ∨ isValidName text = true := by simpa using allowed
      obtain ⟨proper, passes⟩ := ih again
      refine ⟨(areProper_cons named found).mpr (.inr proper), ?_⟩
      rw [listTokens_cons proper.1]
      simpa using passes
  | case3 => cases read
  | case4 => cases read
  | case5 => cases read
  | case6 => cases read

theorem readNames_complete {specialWords : List String} {names : List String}
    (proper : AreProper specialWords names) {tokens after : Tokens}
    (passes : Tokens.Passes (listTokens names) tokens after) :
    readNames specialWords tokens = .ok (names, after) := by
  induction names generalizing tokens with
  | nil => exact absurd rfl proper.1
  | cons name names ih =>
      have named := proper.2 name List.mem_cons_self
      have allowed : (name ∈ specialWords || isValidName name) = true := by simpa using named
      rcases (areProper_cons named names).mp proper with rfl | later
      · obtain ⟨line, _, rfl, line', rest, rfl, rfl⟩ := passes
        unfold readNames
        rw [if_pos allowed]
      · rw [listTokens_cons later.1] at passes
        obtain ⟨line, _, rfl, line', rest, rfl, passes⟩ := passes
        unfold readNames
        rw [if_pos allowed]
        simp only [ih later passes]

theorem readNames_eq_ok {specialWords : List String} {tokens after : Tokens}
    {names : List String} :
    readNames specialWords tokens = .ok (names, after) ↔
      AreProper specialWords names ∧ Tokens.Passes (listTokens names) tokens after := by
  constructor
  · exact readNames_sound
  · intro given
    rcases given with ⟨proper, passes⟩
    exact readNames_complete proper passes

theorem readPackage_eq_ok {tokens after : Tokens} {package : String} :
    readPackage tokens = .ok (package, after) ↔
      isValidName package = true ∧ Tokens.Passes [.word package, .word "to"] tokens after := by
  unfold readPackage
  constructor
  · intro read
    obtain ⟨⟨name, rest⟩, first, read⟩ := exceptBind_eq_ok.mp read
    obtain ⟨rest', second, read⟩ := exceptBind_eq_ok.mp read
    cases read
    obtain ⟨named, passes⟩ := readName_eq_ok.mp first
    refine ⟨named.resolve_left List.not_mem_nil, ?_⟩
    exact (Tokens.passes_append [_] [_] _ _).mpr ⟨rest, passes, expectWord_eq_ok.mp second⟩
  · intro given
    rcases given with ⟨named, passes⟩
    obtain ⟨rest, first, second⟩ := (Tokens.passes_append [_] [_] _ _).mp passes
    apply exceptBind_eq_ok.mpr
    refine ⟨(package, rest), readName_eq_ok.mpr ⟨.inr named, first⟩, ?_⟩
    exact exceptBind_eq_ok.mpr ⟨after, expectWord_eq_ok.mpr second, rfl⟩

private theorem plainBody_eq_ok {words : List String} {build : List String → Directive}
    {tokens after : Tokens} {directive : Directive} :
    (do
      let (names, rest) ← readNames words tokens
      return (build names, rest) : Except Fault (Directive × Tokens)) = .ok (directive, after) ↔
    ∃ names, directive = build names ∧ AreProper words names ∧
      Tokens.Passes (listTokens names) tokens after := by
  constructor
  · intro read
    obtain ⟨⟨names, rest⟩, found, read⟩ := exceptBind_eq_ok.mp read
    cases read
    exact ⟨names, rfl, readNames_eq_ok.mp found⟩
  · intro given
    rcases given with ⟨names, rfl, found⟩
    exact exceptBind_eq_ok.mpr ⟨(names, after), readNames_eq_ok.mpr found, rfl⟩

private theorem qualifiedBody_eq_ok {words : List String}
    {build : String → List String → Directive} {tokens after : Tokens} {directive : Directive} :
    (do
      let (package, rest) ← readPackage tokens
      let (names, rest) ← readNames words rest
      return (build package names, rest) : Except Fault (Directive × Tokens)) =
        .ok (directive, after) ↔
    ∃ package names, directive = build package names ∧ isValidName package = true ∧
      AreProper words names ∧
      Tokens.Passes (.word package :: .word "to" :: listTokens names) tokens after := by
  constructor
  · intro read
    obtain ⟨⟨package, rest⟩, found, read⟩ := exceptBind_eq_ok.mp read
    obtain ⟨named, before⟩ := readPackage_eq_ok.mp found
    obtain ⟨names, same, proper, behind⟩ := plainBody_eq_ok.mp read
    refine ⟨package, names, same, named, proper, ?_⟩
    exact (Tokens.passes_append [_, _] _ _ _).mpr ⟨rest, before, behind⟩
  · intro given
    rcases given with ⟨package, names, same, named, proper, passes⟩
    obtain ⟨rest, before, behind⟩ := (Tokens.passes_append [_, _] _ _ _).mp passes
    apply exceptBind_eq_ok.mpr
    refine ⟨(package, rest), readPackage_eq_ok.mpr ⟨named, before⟩, ?_⟩
    exact plainBody_eq_ok.mpr ⟨names, same, proper, behind⟩

/-- What is read behind a keyword is a proper directive of that keyword. -/
theorem readBody_eq_ok {keyword : Keyword} {line : Nat} {tokens after : Tokens}
    {directive : Directive} :
    readBody keyword tokens = .ok (directive, after) ↔
      directive.IsProper ∧
        Tokens.Passes directive.tokens (.cons (.word keyword.word) line tokens) after := by
  unfold readBody
  -- Of the five kinds of directives only that of the keyword has tokens that begin with it.
  cases keyword with
  | addModules =>
      rw [plainBody_eq_ok]
      cases directive <;>
        simp [Directive.tokens, Directive.IsProper, Keyword.word, Keyword.specialWords,
          allModulePath, testModulePath]
  | limitModules =>
      rw [plainBody_eq_ok]
      cases directive <;>
        simp [Directive.tokens, Directive.IsProper, Keyword.word, Keyword.specialWords]
  | addReads =>
      rw [plainBody_eq_ok]
      cases directive <;>
        simp [Directive.tokens, Directive.IsProper, Keyword.word, Keyword.specialWords,
          testModulePath]
  | addExports =>
      rw [qualifiedBody_eq_ok]
      cases directive <;>
        simp [Directive.tokens, Directive.IsProper, Keyword.word, Keyword.specialWords,
          allUnnamed, testModulePath, and_assoc]
  | addOpens =>
      rw [qualifiedBody_eq_ok]
      cases directive <;>
        simp [Directive.tokens, Directive.IsProper, Keyword.word, Keyword.specialWords, and_assoc]

private theorem ofWord?_word (keyword : Keyword) :
    Keyword.ofWord? keyword.word = some keyword := by
  cases keyword <;> decide

private theorem word_of_ofWord? {text : String} {keyword : Keyword}
    (found : Keyword.ofWord? text = some keyword) : text = keyword.word := by
  have same := List.find?_some found
  simpa using (of_decide_eq_true same).symm

private theorem tokens_begin (directive : Directive) :
    ∃ keyword : Keyword, ∃ body, directive.tokens = .word keyword.word :: body := by
  cases directive with
  | addModules names => exact ⟨.addModules, _, rfl⟩
  | limitModules names => exact ⟨.limitModules, _, rfl⟩
  | addReads names => exact ⟨.addReads, _, rfl⟩
  | addExports package targets => exact ⟨.addExports, _, rfl⟩
  | addOpens package targets => exact ⟨.addOpens, _, rfl⟩

theorem readDirectives_sound {tokens after : Tokens} {directives : List Directive}
    (read : readDirectives tokens = .ok (directives, after)) :
    (∀ directive ∈ directives, directive.IsProper) ∧
      Tokens.Passes (directives.flatMap Directive.tokens) tokens after := by
  fun_induction readDirectives tokens generalizing directives with
  | case1 text line rest keyword known fault failed => cases read
  | case2 text line rest keyword known directive more found fault failed ih => cases read
  | case3 text line rest keyword known directive more found later after' again ih =>
      cases read
      rw [word_of_ofWord? known]
      obtain ⟨proper, passes⟩ := readBody_eq_ok.mp found
      obtain ⟨others, behind⟩ := ih again
      constructor
      · intro other present
        rcases List.mem_cons.mp present with rfl | present
        · exact proper
        · exact others other present
      · exact (Tokens.passes_append _ _ _ _).mpr ⟨more, passes, behind⟩
  | case4 => cases read
  | case5 => cases read
  | case6 tokens other =>
      cases read
      exact ⟨fun _ absent => absurd absent List.not_mem_nil, rfl⟩

theorem readDirectives_complete {directives : List Directive}
    (proper : ∀ directive ∈ directives, directive.IsProper) {tokens after : Tokens}
    (passes : Tokens.Passes (directives.flatMap Directive.tokens) tokens after)
    (stops : ∀ text line rest, after ≠ .cons (.word text) line rest) :
    readDirectives tokens = .ok (directives, after) := by
  induction directives generalizing tokens with
  | nil =>
      cases passes
      unfold readDirectives
      split
      · exact absurd rfl (stops _ _ _)
      · rfl
  | cons directive directives ih =>
      obtain ⟨more, first, later⟩ := (Tokens.passes_append _ _ _ _).mp passes
      obtain ⟨keyword, body, same⟩ := tokens_begin directive
      have begins := first
      rw [same] at begins
      obtain ⟨line, rest, rfl, -⟩ := begins
      have found : readBody keyword rest = .ok (directive, more) :=
        readBody_eq_ok.mpr ⟨proper directive List.mem_cons_self, first⟩
      have others : readDirectives more = .ok (directives, after) :=
        ih (fun other present => proper other (List.mem_cons_of_mem _ present)) later
      unfold readDirectives
      simp only [ofWord?_word]
      split
      · rename_i fault failed
        rw [found] at failed
        cases failed
      · rename_i directive' more' succeeded
        rw [found] at succeeded
        cases succeeded
        simp only [others]

end Reading

/-! ### Reading the whole -/

/-- Reading goes from the tokens of a proper tree to the tree. -/
theorem Declaration.ofTokens_eq_ok {tokens : Tokens} {declaration : Declaration} :
    Declaration.ofTokens tokens = .ok declaration ↔
      declaration.IsProper ∧ ∃ line, Tokens.Passes declaration.tokens tokens (.endOfFile line) := by
  unfold Declaration.ofTokens
  constructor
  · intro read
    obtain ⟨first, begun, read⟩ := exceptBind_eq_ok.mp read
    obtain ⟨⟨module, second⟩, named, read⟩ := exceptBind_eq_ok.mp read
    obtain ⟨third, opened, read⟩ := exceptBind_eq_ok.mp read
    obtain ⟨⟨directives, fourth⟩, listed, read⟩ := exceptBind_eq_ok.mp read
    obtain ⟨fifth, closed, read⟩ := exceptBind_eq_ok.mp read
    obtain ⟨valid, passesName⟩ := Reading.readName_eq_ok.mp named
    obtain ⟨proper, passesDirectives⟩ := Reading.readDirectives_sound listed
    cases fifth with
    | openComment line => cases read
    | cons token line rest => cases read
    | endOfFile line =>
        cases read
        refine ⟨⟨valid.resolve_left List.not_mem_nil, proper⟩, line, ?_⟩
        refine (Tokens.passes_append _ [_] _ _).mpr
          ⟨fourth, ?_, Reading.expectMark_eq_ok.mp closed⟩
        refine (Tokens.passes_append [_, _, _] _ _ _).mpr ⟨third, ?_, passesDirectives⟩
        refine (Tokens.passes_append [_] [_, _] _ _).mpr
          ⟨first, Reading.expectWord_eq_ok.mp begun, ?_⟩
        exact (Tokens.passes_append [_] [_] _ _).mpr
          ⟨second, passesName, Reading.expectMark_eq_ok.mp opened⟩
  · intro given
    rcases given with ⟨⟨valid, proper⟩, line, passes⟩
    obtain ⟨fourth, passes, closed⟩ := (Tokens.passes_append _ [_] _ _).mp passes
    obtain ⟨third, passes, listed⟩ := (Tokens.passes_append [_, _, _] _ _ _).mp passes
    obtain ⟨first, begun, passes⟩ := (Tokens.passes_append [_] [_, _] _ _).mp passes
    obtain ⟨second, named, opened⟩ := (Tokens.passes_append [_] [_] _ _).mp passes
    have stops : ∀ text line rest, fourth ≠ .cons (.word text) line rest := by
      intro text line rest same
      rcases same with rfl
      simp at closed
    have read := Reading.readDirectives_complete proper listed stops
    apply exceptBind_eq_ok.mpr
    refine ⟨first, Reading.expectWord_eq_ok.mpr begun, ?_⟩
    apply exceptBind_eq_ok.mpr
    refine ⟨(declaration.module, second), Reading.readName_eq_ok.mpr ⟨.inr valid, named⟩, ?_⟩
    apply exceptBind_eq_ok.mpr
    refine ⟨third, Reading.expectMark_eq_ok.mpr opened, ?_⟩
    apply exceptBind_eq_ok.mpr
    refine ⟨(declaration.directives, fourth), read, ?_⟩
    exact exceptBind_eq_ok.mpr ⟨.endOfFile line, Reading.expectMark_eq_ok.mpr closed, rfl⟩

/-- A patch file is read exactly when its tokens go on to its end and are those of a proper
tree, and what is read is that tree. -/
theorem Declaration.ofText_eq_ok {text : String} {declaration : Declaration} :
    Declaration.ofText text = .ok declaration ↔
      (Tokens.ofText text).isComplete = true ∧ declaration.IsProper ∧
        (Tokens.ofText text).bare = declaration.tokens := by
  unfold Declaration.ofText
  rw [Declaration.ofTokens_eq_ok, Tokens.passes_to_end_iff]
  exact and_left_comm

end ModulePlan.Patch
