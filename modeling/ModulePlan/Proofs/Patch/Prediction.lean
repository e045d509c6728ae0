/-
Readers that see no further than the first token that does not fit.

Such a reader does the same with all tokens that begin alike.  Where it finds fault with a
token, the tokens before it can be gone on with, and nothing can be made of them together with
that token.  Readers of one token are so, and remain so when they are put together.
-/

import ModulePlan.Proofs.Patch.Grammar

namespace ModulePlan.Patch

/-! ### Readers -/

namespace Tokens

/-- The first token, or nothing at the end of the file. -/
def head? : Tokens → Option Token
  | .endOfFile _ | .openComment _ => none
  | .cons token _ _ => some token

theorem isComplete_of_passes {phrase : List Token} {tokens rest : Tokens}
    (passes : Passes phrase tokens rest) : rest.isComplete = tokens.isComplete := by
  induction phrase generalizing tokens with
  | nil =>
      rw [passes_nil] at passes
      rw [passes]
  | cons token more ih =>
      obtain ⟨line, behind, rfl, later⟩ := passes
      rw [ih later]
      rfl

end Tokens

namespace Reading

abbrev Reader (α : Type) :=
  Tokens → Except Fault (α × Tokens)

variable {α β : Type}

def give (value : α) : Reader α :=
  fun tokens => .ok (value, tokens)

def silent (expect : Tokens → Except Fault Tokens) : Reader Unit :=
  fun tokens => expect tokens >>= fun rest => .ok ((), rest)

def andThen (first : Reader α) (next : α → Reader β) : Reader β :=
  fun tokens => first tokens >>= fun read => next read.1 read.2

theorem andThen_of_ok {first : Reader α} {next : α → Reader β} {tokens rest : Tokens} {value : α}
    (found : first tokens = .ok (value, rest)) : andThen first next tokens = next value rest := by
  rw [andThen, found, exceptBind_ok]

theorem andThen_of_error {first : Reader α} {next : α → Reader β} {tokens : Tokens} {fault : Fault}
    (failed : first tokens = .error fault) : andThen first next tokens = .error fault := by
  rw [andThen, failed]
  rfl

theorem andThen_congr {first second : Reader α} {next : α → Reader β} {tokens others : Tokens}
    (same : first tokens = second others) :
    andThen first next tokens = andThen second next others := by
  rw [andThen, same]
  rfl

theorem andThen_give (value : α) (next : α → Reader β) : andThen (give value) next = next value :=
  rfl

theorem andThen_assoc {γ : Type} (first : Reader α) (next : α → Reader β) (last : β → Reader γ) :
    andThen (andThen first next) last =
      andThen first fun value => andThen (next value) last := by
  funext tokens
  cases found : first tokens with
  | error fault =>
      rw [andThen_of_error found, andThen_of_error (andThen_of_error found)]
  | ok read =>
      rw [andThen_of_ok found, andThen, andThen_of_ok found]
      rfl

/-- Whatever follows the phrase, the reader takes the phrase and leaves what follows. -/
def Takes (read : Reader α) (phrase : List Token) (value : α) : Prop :=
  ∀ ⦃tokens rest : Tokens⦄, Tokens.Passes phrase tokens rest → read tokens = .ok (value, rest)

def IsCompletable (read : Reader α) : Prop :=
  ∃ phrase value, Takes read phrase value

/-- The tokens in front can be gone on with, but not with what stands behind them. -/
structure Misfits (read : Reader α) (front : List Token) (rest : Tokens) : Prop where
  goesOn : ∃ more value, Takes read (front ++ more) value
  refused : ∀ other otherRest, Tokens.Passes front other otherRest →
    otherRest.head? = rest.head? → ∃ fault, read other = .error fault

/-- What the reader does with these tokens, it does with all that begin alike. -/
structure Foresees (read : Reader α) (tokens : Tokens) : Prop where
  reads : ∀ {value rest}, read tokens = .ok (value, rest) →
    ∃ phrase, Tokens.Passes phrase tokens rest ∧ Takes read phrase value
  refuses : ∀ {fault}, tokens.isComplete = true → read tokens = .error fault →
    ∃ front rest problem, Tokens.Passes front tokens rest ∧ fault = refuse problem rest ∧
      Misfits read front rest

structure IsPredictive (read : Reader α) : Prop where
  foresees : ∀ tokens, Foresees read tokens
  completable : IsCompletable read

/-! ### Putting readers together -/

theorem takes_give (value : α) : Takes (give value) [] value := by
  intro tokens rest passes
  rw [Tokens.passes_nil] at passes
  rw [passes]
  rfl

theorem takes_andThen {first : Reader α} {next : α → Reader β} {phrase more : List Token}
    {value : α} {result : β} (front : Takes first phrase value)
    (back : Takes (next value) more result) :
    Takes (andThen first next) (phrase ++ more) result := by
  intro tokens rest passes
  obtain ⟨middle, before, behind⟩ := (Tokens.passes_append _ _ _ _).mp passes
  rw [andThen_of_ok (front before), back behind]

theorem isCompletable_andThen {first : Reader α} {next : α → Reader β}
    (front : IsCompletable first) (back : ∀ value, IsCompletable (next value)) :
    IsCompletable (andThen first next) := by
  obtain ⟨phrase, value, takes⟩ := front
  obtain ⟨more, result, takesMore⟩ := back value
  exact ⟨phrase ++ more, result, takes_andThen takes takesMore⟩

theorem isPredictive_give (value : α) : IsPredictive (give value) where
  foresees := by
    intro tokens
    constructor
    · intro found rest read
      cases read
      exact ⟨[], rfl, takes_give value⟩
    · intro fault _ read
      cases read
  completable := ⟨[], value, takes_give value⟩

/-- A fault of the first reader is one of both, if the second can always be completed. -/
private theorem misfits_first {first : Reader α} {next : α → Reader β}
    (completable : ∀ value, IsCompletable (next value)) {front : List Token} {rest : Tokens}
    (misfits : Misfits first front rest) : Misfits (andThen first next) front rest where
  goesOn := by
    obtain ⟨more, value, takes⟩ := misfits.goesOn
    obtain ⟨others, result, takesOthers⟩ := completable value
    refine ⟨more ++ others, result, ?_⟩
    rw [← List.append_assoc]
    exact takes_andThen takes takesOthers
  refused := by
    intro other otherRest passes same
    obtain ⟨fault, failed⟩ := misfits.refused other otherRest passes same
    exact ⟨fault, andThen_of_error failed⟩

/-- A fault of the second reader is behind a phrase of the first. -/
private theorem misfits_second {first : Reader α} {next : α → Reader β} {phrase : List Token}
    {value : α} (takes : Takes first phrase value) {front : List Token} {rest : Tokens}
    (misfits : Misfits (next value) front rest) :
    Misfits (andThen first next) (phrase ++ front) rest where
  goesOn := by
    obtain ⟨more, result, takesMore⟩ := misfits.goesOn
    refine ⟨more, result, ?_⟩
    rw [List.append_assoc]
    exact takes_andThen takes takesMore
  refused := by
    intro other otherRest passes same
    obtain ⟨middle, before, behind⟩ := (Tokens.passes_append _ _ _ _).mp passes
    obtain ⟨fault, failed⟩ := misfits.refused middle otherRest behind same
    exact ⟨fault, by rw [andThen_of_ok (takes before), failed]⟩

theorem foresees_andThen {first : Reader α} {next : α → Reader β} {tokens : Tokens}
    (here : Foresees first tokens) (completable : ∀ value, IsCompletable (next value))
    (later : ∀ value rest, first tokens = .ok (value, rest) → Foresees (next value) rest) :
    Foresees (andThen first next) tokens where
  reads := by
    intro result rest read
    obtain ⟨⟨value, middle⟩, found, read⟩ := exceptBind_eq_ok.mp read
    obtain ⟨phrase, passes, takes⟩ := here.reads found
    obtain ⟨more, passesMore, takesMore⟩ := (later value middle found).reads read
    exact ⟨phrase ++ more, (Tokens.passes_append _ _ _ _).mpr ⟨middle, passes, passesMore⟩,
      takes_andThen takes takesMore⟩
  refuses := by
    intro fault complete read
    cases found : first tokens with
    | error early =>
        rw [andThen_of_error found] at read
        cases read
        obtain ⟨front, rest, problem, passes, told, misfits⟩ := here.refuses complete found
        exact ⟨front, rest, problem, passes, told, misfits_first completable misfits⟩
    | ok pair =>
        obtain ⟨value, middle⟩ := pair
        rw [andThen_of_ok found] at read
        obtain ⟨phrase, passes, takes⟩ := here.reads found
        rw [← Tokens.isComplete_of_passes passes] at complete
        obtain ⟨front, rest, problem, passesFront, told, misfits⟩ :=
          (later value middle found).refuses complete read
        exact ⟨phrase ++ front, rest, problem,
          (Tokens.passes_append _ _ _ _).mpr ⟨middle, passes, passesFront⟩, told,
          misfits_second takes misfits⟩

theorem isPredictive_andThen {first : Reader α} {next : α → Reader β}
    (front : IsPredictive first) (back : ∀ value, IsPredictive (next value)) :
    IsPredictive (andThen first next) where
  foresees := fun tokens =>
    foresees_andThen (front.foresees tokens) (fun value => (back value).completable)
      (fun value rest _ => (back value).foresees rest)
  completable := isCompletable_andThen front.completable (fun value => (back value).completable)

theorem isCompletable_map {read : Reader α} (completable : IsCompletable read)
    (change : α → β) : IsCompletable (andThen read fun value => give (change value)) :=
  isCompletable_andThen completable fun _ => (isPredictive_give _).completable

theorem foresees_map {read : Reader α} {tokens : Tokens} (here : Foresees read tokens)
    (change : α → β) : Foresees (andThen read fun value => give (change value)) tokens :=
  foresees_andThen here (fun _ => (isPredictive_give _).completable)
    (fun _ rest _ => (isPredictive_give _).foresees rest)

theorem isPredictive_map {read : Reader α} (predictive : IsPredictive read) (change : α → β) :
    IsPredictive (andThen read fun value => give (change value)) :=
  isPredictive_andThen predictive fun _ => isPredictive_give _

/-- What a reader that goes on with itself does with fewer tokens may be taken as known. -/
theorem isPredictive_of_shorter {read : Reader α} (completable : IsCompletable read)
    (step : ∀ tokens : Tokens,
      (∀ fewer : Tokens, fewer.length < tokens.length → Foresees read fewer) →
        Foresees read tokens) :
    IsPredictive read := by
  refine ⟨fun tokens => ?_, completable⟩
  induction size : tokens.length using Nat.strongRecOn generalizing tokens with
  | ind length ih =>
      apply step
      intro fewer shorter
      exact ih fewer.length (size ▸ shorter) fewer rfl

/-! ### Readers of one token -/

/-- The reader takes one token if the token is accepted, and otherwise finds fault with it. -/
structure TakesOne (read : Reader α) (accept : Token → Option α) : Prop where
  takes : ∀ {token value}, accept token = some value →
    ∀ line rest, read (.cons token line rest) = .ok (value, rest)
  refuses : ∀ {tokens : Tokens}, tokens.head?.bind accept = none →
    ∃ fault, read tokens = .error fault ∧
      (tokens.isComplete = true → ∃ problem, fault = refuse problem tokens)
  accepts : ∃ token value, accept token = some value

namespace TakesOne

variable {read : Reader α} {accept : Token → Option α}

theorem takes_accepted (one : TakesOne read accept) {token : Token} {value : α}
    (accepted : accept token = some value) : Takes read [token] value := by
  intro tokens rest passes
  obtain ⟨line, behind, rfl, same⟩ := passes
  rw [Tokens.passes_nil] at same
  rw [← same]
  exact one.takes accepted line behind

theorem ok_of_accepted (one : TakesOne read accept) {tokens : Tokens} {value : α}
    (accepted : tokens.head?.bind accept = some value) :
    ∃ token line rest, tokens = .cons token line rest ∧ accept token = some value ∧
      read tokens = .ok (value, rest) := by
  cases tokens with
  | endOfFile line => cases accepted
  | openComment line => cases accepted
  | cons token line rest =>
      exact ⟨token, line, rest, rfl, accepted, one.takes accepted line rest⟩

theorem exists_of_ok (one : TakesOne read accept) {tokens rest : Tokens} {value : α}
    (found : read tokens = .ok (value, rest)) :
    ∃ token line, tokens = .cons token line rest ∧ accept token = some value := by
  cases accepted : tokens.head?.bind accept with
  | none =>
      obtain ⟨fault, failed, _⟩ := one.refuses accepted
      rw [failed] at found
      cases found
  | some other =>
      obtain ⟨token, line, behind, rfl, accepted, taken⟩ := one.ok_of_accepted accepted
      rw [taken] at found
      cases found
      exact ⟨token, line, rfl, accepted⟩

theorem length_of_ok (one : TakesOne read accept) {tokens rest : Tokens} {value : α}
    (found : read tokens = .ok (value, rest)) : rest.length < tokens.length := by
  obtain ⟨token, line, rfl, _⟩ := one.exists_of_ok found
  exact Nat.lt_succ_self _

theorem isCompletable (one : TakesOne read accept) : IsCompletable read := by
  obtain ⟨token, value, accepted⟩ := one.accepts
  exact ⟨[token], value, one.takes_accepted accepted⟩

theorem foresees (one : TakesOne read accept) (tokens : Tokens) : Foresees read tokens where
  reads := by
    intro value rest found
    obtain ⟨token, line, rfl, accepted⟩ := one.exists_of_ok found
    exact ⟨[token], ⟨line, rest, rfl, rfl⟩, one.takes_accepted accepted⟩
  refuses := by
    intro fault complete failed
    have unaccepted : tokens.head?.bind accept = none := by
      cases accepted : tokens.head?.bind accept with
      | none => rfl
      | some value =>
          obtain ⟨_, _, _, _, _, taken⟩ := one.ok_of_accepted accepted
          rw [failed] at taken
          cases taken
    obtain ⟨found, failedToo, told⟩ := one.refuses unaccepted
    rw [failed] at failedToo
    cases failedToo
    obtain ⟨problem, rfl⟩ := told complete
    refine ⟨[], tokens, problem, rfl, rfl, one.isCompletable, ?_⟩
    intro other otherRest passes same
    rw [Tokens.passes_nil] at passes
    rw [← passes] at same
    obtain ⟨otherFault, otherFailed, _⟩ := one.refuses (same ▸ unaccepted)
    exact ⟨otherFault, otherFailed⟩

theorem isPredictive (one : TakesOne read accept) : IsPredictive read :=
  ⟨one.foresees, one.isCompletable⟩

end TakesOne

def acceptName (specialWords : List String) : Token → Option String
  | .mark _ => none
  | .word text => if text ∈ specialWords || isValidName text then some text else none

theorem takesOne_silent {expect : Tokens → Except Fault Tokens} {token : Token}
    (takes : ∀ line rest, expect (.cons token line rest) = .ok rest)
    (refuses : ∀ tokens, tokens.head? ≠ some token →
      ∃ problem, expect tokens = .error (refuse problem tokens)) :
    TakesOne (silent expect) (fun found => if found = token then some () else none) where
  takes := by
    intro found value accepted line rest
    have same : found = token := by simpa using accepted
    rw [same, silent, takes]
    rfl
  refuses := by
    intro tokens unaccepted
    have other : tokens.head? ≠ some token := by
      intro same
      rw [same, Option.bind_some, if_pos rfl] at unaccepted
      cases unaccepted
    obtain ⟨problem, failed⟩ := refuses tokens other
    refine ⟨_, ?_, fun _ => ⟨problem, rfl⟩⟩
    rw [silent, failed]
    rfl
  accepts := ⟨token, (), if_pos rfl⟩

theorem takesOne_expectWord (word : String) :
    TakesOne (silent (expectWord word))
      (fun found => if found = .word word then some () else none) := by
  apply takesOne_silent
  · intro line rest
    exact if_pos rfl
  · intro tokens other
    refine ⟨.expectedWord word, ?_⟩
    unfold expectWord
    split
    · rename_i text line rest
      have differs : text ≠ word := by simpa [Tokens.head?] using other
      exact if_neg differs
    · rfl

theorem takesOne_expectMark (mark : Mark) :
    TakesOne (silent (expectMark mark))
      (fun found => if found = .mark mark then some () else none) := by
  apply takesOne_silent
  · intro line rest
    exact if_pos rfl
  · intro tokens other
    refine ⟨.expectedMark mark, ?_⟩
    unfold expectMark
    split
    · rename_i found line rest
      have differs : found ≠ mark := by simpa [Tokens.head?] using other
      exact if_neg differs
    · rfl

private theorem isValidName_a : isValidName "a" = true := by
  decide

theorem takesOne_readName (kind : NameKind) (specialWords : List String) :
    TakesOne (readName kind specialWords) (acceptName specialWords) where
  takes := by
    intro token value accepted line rest
    cases token with
    | mark sign => cases accepted
    | word text =>
        obtain ⟨allowed, same⟩ := Option.ite_none_right_eq_some.mp accepted
        cases same
        rw [readName, if_pos allowed]
  refuses := by
    intro tokens unaccepted
    unfold readName
    split
    · rename_i text line rest
      have other : ¬(text ∈ specialWords || isValidName text) = true := by
        intro allowed
        have accepted : acceptName specialWords (.word text) = some text := if_pos allowed
        have none := unaccepted
        rw [Tokens.head?, Option.bind_some, accepted] at none
        cases none
      rw [if_neg other]
      exact ⟨_, rfl, fun _ => ⟨_, rfl⟩⟩
    · exact ⟨_, rfl, fun _ => ⟨_, rfl⟩⟩
  accepts := ⟨.word "a", "a", if_pos (by rw [isValidName_a, Bool.or_true])⟩

/-! ### Lists of names -/

def acceptSeparator : Token → Option Bool
  | .mark .semicolon => some false
  | .mark .comma => some true
  | _ => none

/-- Tells whether another name is to follow. -/
def readSeparator : Reader Bool
  | .cons (.mark .semicolon) _ rest => .ok (false, rest)
  | .cons (.mark .comma) _ rest => .ok (true, rest)
  | tokens => .error (refuse .missingSeparator tokens)

theorem takesOne_readSeparator : TakesOne readSeparator acceptSeparator where
  takes := by
    intro token value accepted line rest
    unfold acceptSeparator at accepted
    split at accepted <;> cases accepted <;> rfl
  refuses := by
    intro tokens unaccepted
    unfold readSeparator
    split
    · cases unaccepted
    · cases unaccepted
    · exact ⟨_, rfl, fun _ => ⟨_, rfl⟩⟩
  accepts := ⟨.mark .comma, true, rfl⟩

/-- What is read behind a name, depending on whether another is to follow. -/
def readOthers (specialWords : List String) (name : String) : Bool → Reader (List String)
  | false => give [name]
  | true => andThen (readNames specialWords) fun names => give (name :: names)

private theorem readNames_word {specialWords : List String} {name : String}
    (allowed : (name ∈ specialWords || isValidName name) = true) (line : Nat) (rest : Tokens) :
    readNames specialWords (.cons (.word name) line rest) =
      andThen readSeparator (readOthers specialWords name) rest := by
  rw [readNames.eq_def]
  dsimp only
  rw [if_pos allowed]
  cases rest with
  | endOfFile line => rfl
  | openComment line => rfl
  | cons token line more =>
      cases token with
      | word other => rfl
      | mark sign =>
          cases sign with
          | comma =>
              change _ = readNames specialWords more >>= fun read => .ok (name :: read.1, read.2)
              dsimp only
              cases readNames specialWords more with
              | error fault => rfl
              | ok read => rfl
          | _ => rfl

theorem readNames_eq (specialWords : List String) :
    readNames specialWords =
      andThen (readName .module specialWords) fun name =>
        andThen readSeparator (readOthers specialWords name) := by
  funext tokens
  cases tokens with
  | endOfFile line => rfl
  | openComment line => rfl
  | cons token line rest =>
      cases token with
      | mark sign => rfl
      | word text =>
          by_cases allowed : (text ∈ specialWords || isValidName text) = true
          · have named : readName .module specialWords (.cons (.word text) line rest) =
                .ok (text, rest) := if_pos allowed
            rw [readNames_word allowed, andThen_of_ok named]
          · have refused : readName .module specialWords (.cons (.word text) line rest) =
                .error (refuse (.invalidName .module) (.cons (.word text) line rest)) :=
              if_neg allowed
            rw [readNames.eq_def, andThen_of_error refused]
            exact if_neg allowed

theorem isCompletable_readNames (specialWords : List String) :
    IsCompletable (readNames specialWords) := by
  have proper : AreProper specialWords ["a"] :=
    ⟨List.cons_ne_nil _ _, List.forall_mem_singleton.mpr (Or.inr isValidName_a)⟩
  exact ⟨listTokens ["a"], ["a"], fun _ _ passes => readNames_complete proper passes⟩

theorem isPredictive_readNames (specialWords : List String) :
    IsPredictive (readNames specialWords) := by
  have all := isCompletable_readNames specialWords
  have name := takesOne_readName .module specialWords
  have separator := takesOne_readSeparator
  have completable (first : String) (another : Bool) :
      IsCompletable (readOthers specialWords first another) := by
    cases another with
    | false => exact (isPredictive_give _).completable
    | true => exact isCompletable_map all _
  apply isPredictive_of_shorter all
  intro tokens ih
  rw [readNames_eq]
  apply foresees_andThen (name.foresees tokens)
  · exact fun first => isCompletable_andThen separator.isCompletable (completable first)
  intro first behind named
  apply foresees_andThen (separator.foresees behind) (completable first)
  intro another rest separated
  cases another with
  | false => exact (isPredictive_give _).foresees rest
  | true =>
      have shorter := name.length_of_ok named
      have shorterYet := separator.length_of_ok separated
      exact foresees_map (ih rest (by omega)) _

/-! ### Directives -/

theorem readPackage_eq :
    readPackage =
      andThen (readName .package []) fun package =>
        andThen (silent (expectWord "to")) fun _ => give package := by
  funext tokens
  unfold readPackage andThen silent
  cases readName .package [] tokens with
  | error fault => rfl
  | ok read =>
      rw [exceptBind_ok, exceptBind_ok]
      dsimp only
      cases expectWord "to" read.2 with
      | error fault => rfl
      | ok rest => rfl

theorem isPredictive_readPackage : IsPredictive readPackage := by
  rw [readPackage_eq]
  apply isPredictive_andThen (takesOne_readName .package []).isPredictive
  intro package
  exact isPredictive_map (takesOne_expectWord "to").isPredictive fun _ => package

theorem isPredictive_readBody (keyword : Keyword) : IsPredictive (readBody keyword) := by
  have names := isPredictive_readNames keyword.specialWords
  have qualified (build : String → List String → Directive) :
      IsPredictive (andThen readPackage fun package =>
        andThen (readNames keyword.specialWords) fun names => give (build package names)) :=
    isPredictive_andThen isPredictive_readPackage fun package => isPredictive_map names _
  cases keyword with
  | addModules => exact isPredictive_map names Directive.addModules
  | limitModules => exact isPredictive_map names Directive.limitModules
  | addReads => exact isPredictive_map names Directive.addReads
  | addExports => exact qualified .addExports
  | addOpens => exact qualified .addOpens

/-- Takes a keyword, or the brace that is behind the last directive. -/
def readStart : Reader (Option Keyword)
  | .cons (.word text) line rest =>
    match Keyword.ofWord? text with
    | some keyword => .ok (some keyword, rest)
    | none =>
      match rest with
      | .openComment _ => .error (refuse .unknownKeyword rest)
      | _ => .error (refuse .unknownKeyword (.cons (.word text) line rest))
  | .cons (.mark .rightBrace) _ rest => .ok (none, rest)
  | tokens => .error (refuse (.expectedMark .rightBrace) tokens)

def acceptStart : Token → Option (Option Keyword)
  | .word text => (Keyword.ofWord? text).map some
  | .mark .rightBrace => some none
  | .mark _ => none

theorem takesOne_readStart : TakesOne readStart acceptStart where
  takes := by
    intro token value accepted line rest
    unfold acceptStart at accepted
    split at accepted
    · rename_i text
      obtain ⟨keyword, known, same⟩ := Option.map_eq_some_iff.mp accepted
      rw [readStart.eq_def]
      dsimp only
      rw [known, ← same]
    · cases accepted
      rfl
    · cases accepted
  refuses := by
    intro tokens unaccepted
    unfold readStart
    split
    · rename_i text line rest
      have unknown : Keyword.ofWord? text = none := Option.map_eq_none_iff.mp unaccepted
      rw [unknown]
      cases rest with
      | openComment line => exact ⟨_, rfl, fun complete => nomatch complete⟩
      | endOfFile line => exact ⟨_, rfl, fun _ => ⟨_, rfl⟩⟩
      | cons token line rest => exact ⟨_, rfl, fun _ => ⟨_, rfl⟩⟩
    · cases unaccepted
    · exact ⟨_, rfl, fun _ => ⟨_, rfl⟩⟩
  accepts := ⟨.mark .rightBrace, none, rfl⟩

/-- Reads the directives with the brace behind them. -/
def readBlock : Reader (List Directive) :=
  andThen readDirectives fun directives =>
    andThen (silent (expectMark .rightBrace)) fun _ => give directives

def readFrom : Option Keyword → Reader (List Directive)
  | none => give []
  | some keyword =>
    andThen (readBody keyword) fun directive =>
      andThen readBlock fun directives => give (directive :: directives)

private theorem readDirectives_known {text : String} {keyword : Keyword}
    (known : Keyword.ofWord? text = some keyword) (line : Nat) (rest : Tokens) :
    readDirectives (.cons (.word text) line rest) =
      andThen (readBody keyword) (fun directive =>
        andThen readDirectives fun directives => give (directive :: directives)) rest := by
  rw [readDirectives.eq_def]
  dsimp only
  rw [known]
  dsimp only
  cases body : readBody keyword rest with
  | error fault => rw [andThen_of_error body]
  | ok read =>
      rw [andThen_of_ok body]
      dsimp only
      cases others : readDirectives read.2 with
      | error fault => rw [andThen_of_error others]
      | ok found => rw [andThen_of_ok others]; rfl

private theorem readDirectives_unknown {text : String} (unknown : Keyword.ofWord? text = none)
    (line : Nat) (rest : Tokens) :
    ∃ fault, readDirectives (.cons (.word text) line rest) = .error fault ∧
      readStart (.cons (.word text) line rest) = .error fault := by
  rw [readDirectives.eq_def, readStart.eq_def]
  dsimp only
  rw [unknown]
  cases rest with
  | openComment line => exact ⟨_, rfl, rfl⟩
  | endOfFile line => exact ⟨_, rfl, rfl⟩
  | cons token line rest => exact ⟨_, rfl, rfl⟩

private theorem readDirectives_noWord {tokens : Tokens}
    (noWord : ∀ text line rest, tokens ≠ .cons (.word text) line rest) :
    readDirectives tokens = .ok ([], tokens) :=
  readDirectives_complete (List.forall_mem_nil _) rfl noWord

theorem readBlock_eq : readBlock = andThen readStart readFrom := by
  funext tokens
  by_cases word : ∃ text line rest, tokens = .cons (.word text) line rest
  · obtain ⟨text, line, rest, rfl⟩ := word
    cases known : Keyword.ofWord? text with
    | none =>
        obtain ⟨fault, failed, failedToo⟩ := readDirectives_unknown known line rest
        rw [readBlock, andThen_of_error failed, andThen_of_error failedToo]
    | some keyword =>
        have accepted : acceptStart (.word text) = some (some keyword) :=
          congrArg (Option.map some) known
        rw [andThen_of_ok (takesOne_readStart.takes accepted line rest), readFrom]
        unfold readBlock
        rw [andThen_congr (readDirectives_known known line rest)]
        simp only [andThen_assoc, andThen_give]
  · have noWord : ∀ text line rest, tokens ≠ .cons (.word text) line rest :=
      fun text line rest same => word ⟨text, line, rest, same⟩
    rw [readBlock, andThen_of_ok (readDirectives_noWord noWord)]
    cases tokens with
    | endOfFile line => rfl
    | openComment line => rfl
    | cons token line rest =>
        cases token with
        | word text => exact absurd rfl (noWord text line rest)
        | mark sign => cases sign <;> rfl

theorem isCompletable_readBlock : IsCompletable readBlock := by
  have brace : acceptStart (.mark .rightBrace) = some none := rfl
  rw [readBlock_eq]
  exact ⟨_, [], takes_andThen (takesOne_readStart.takes_accepted brace) (takes_give [])⟩

theorem isPredictive_readBlock : IsPredictive readBlock := by
  have others (directive : Directive) := isCompletable_map isCompletable_readBlock (directive :: ·)
  have completable (start : Option Keyword) : IsCompletable (readFrom start) := by
    cases start with
    | none => exact (isPredictive_give _).completable
    | some keyword =>
        exact isCompletable_andThen (isPredictive_readBody keyword).completable others
  apply isPredictive_of_shorter isCompletable_readBlock
  intro tokens ih
  rw [readBlock_eq]
  apply foresees_andThen (takesOne_readStart.foresees tokens) completable
  intro start behind started
  cases start with
  | none => exact (isPredictive_give _).foresees behind
  | some keyword =>
      apply foresees_andThen ((isPredictive_readBody keyword).foresees behind) others
      intro directive rest read
      have shorter := takesOne_readStart.length_of_ok started
      have shorterYet := length_of_readBody read
      exact foresees_map (ih rest (by omega)) _

/-! ### The whole -/

/-- Reads a patch file up to its closing brace. -/
def readTree : Reader Declaration :=
  andThen (silent (expectWord "patch-module")) fun _ =>
    andThen (readName .module []) fun module =>
      andThen (silent (expectMark .leftBrace)) fun _ =>
        andThen readBlock fun directives => give ⟨module, directives⟩

theorem isPredictive_readTree : IsPredictive readTree := by
  apply isPredictive_andThen (takesOne_expectWord "patch-module").isPredictive
  intro _
  apply isPredictive_andThen (takesOne_readName .module []).isPredictive
  intro module
  apply isPredictive_andThen (takesOne_expectMark .leftBrace).isPredictive
  intro _
  exact isPredictive_map isPredictive_readBlock _

def readEnd (declaration : Declaration) : Tokens → Except Fault Declaration
  | .endOfFile _ => .ok declaration
  | rest => .error (refuse .expectedEnd rest)

theorem ofTokens_eq (tokens : Tokens) :
    Declaration.ofTokens tokens = readTree tokens >>= fun read => readEnd read.1 read.2 := by
  unfold readTree readBlock andThen silent give
  simp only [bind_assoc, exceptBind_ok]
  unfold Declaration.ofTokens
  refine bind_congr fun _ => bind_congr fun ⟨_, _⟩ => bind_congr fun _ =>
    bind_congr fun ⟨_, _⟩ => bind_congr fun rest => ?_
  cases rest <;> rfl

end Reading

end ModulePlan.Patch
