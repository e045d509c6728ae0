/-
Patch files as trees.

A patch file declares one module and holds directives.  Each directive lists names; an
export or opening directive first names a package.  Reading follows the grammar token by
token and stops at the first token that does not fit.
-/

import ModulePlan.ModuleName
import ModulePlan.Patch.Fault

namespace ModulePlan.Patch

def conventionalFile : String := "module-info-patch.txt"

inductive Keyword where
  | addModules
  | limitModules
  | addReads
  | addExports
  | addOpens
deriving DecidableEq

def Keyword.word : Keyword → String
  | .addModules => "add-modules"
  | .limitModules => "limit-modules"
  | .addReads => "add-reads"
  | .addExports => "add-exports"
  | .addOpens => "add-opens"

def Keyword.ofWord? (word : String) : Option Keyword :=
  [Keyword.addModules, .limitModules, .addReads, .addExports, .addOpens].find? (·.word = word)

def Keyword.specialWords : Keyword → List String
  | .addModules => [allModulePath, testModulePath]
  | .addReads => [testModulePath]
  | .addExports => [allUnnamed, testModulePath]
  | .limitModules | .addOpens => []

inductive Directive where
  | addModules (names : List String)
  | limitModules (names : List String)
  | addReads (names : List String)
  | addExports (package : String) (targets : List String)
  | addOpens (package : String) (targets : List String)
deriving DecidableEq

structure Declaration where
  module : String
  directives : List Directive
deriving DecidableEq

namespace Reading

/-- The fault that a token stands where something else is expected.  Where the rest begins
with a comment without an end, that comment is the fault. -/
def refuse (problem : Problem) : Tokens → Fault
  | .endOfFile line => ⟨problem, none, line⟩
  | .openComment line => ⟨.commentWithoutEnd, some "/*", line⟩
  | .cons token line _ => ⟨problem, some token.text, line⟩

def expectWord (word : String) (tokens : Tokens) : Except Fault Tokens :=
  match tokens with
  | .cons (.word text) _ rest =>
    if text = word then .ok rest else .error (refuse (.expectedWord word) tokens)
  | _ => .error (refuse (.expectedWord word) tokens)

def expectMark (mark : Mark) (tokens : Tokens) : Except Fault Tokens :=
  match tokens with
  | .cons (.mark found) _ rest =>
    if found = mark then .ok rest else .error (refuse (.expectedMark mark) tokens)
  | _ => .error (refuse (.expectedMark mark) tokens)

def readName (kind : NameKind) (specialWords : List String) (tokens : Tokens) :
    Except Fault (String × Tokens) :=
  match tokens with
  | .cons (.word text) _ rest =>
    if text ∈ specialWords || isValidName text then .ok (text, rest)
    else .error (refuse (.invalidName kind) tokens)
  | _ => .error (refuse (.expectedName kind) tokens)

/-- Reads names with commas between them, up to the semicolon behind the last. -/
def readNames (specialWords : List String) : Tokens → Except Fault (List String × Tokens)
  | .cons (.word text) line rest =>
    if text ∈ specialWords || isValidName text then
      match rest with
      | .cons (.mark .semicolon) _ after => .ok ([text], after)
      | .cons (.mark .comma) _ more =>
        match readNames specialWords more with
        | .ok (names, after) => .ok (text :: names, after)
        | .error fault => .error fault
      | _ => .error (refuse .missingSeparator rest)
    else .error (refuse (.invalidName .module) (.cons (.word text) line rest))
  | tokens => .error (refuse (.expectedName .module) tokens)

def readPackage (tokens : Tokens) : Except Fault (String × Tokens) := do
  let (package, rest) ← readName .package [] tokens
  let rest ← expectWord "to" rest
  return (package, rest)

def readBody (keyword : Keyword) (tokens : Tokens) : Except Fault (Directive × Tokens) :=
  match keyword with
  | .addModules => do
    let (names, rest) ← readNames keyword.specialWords tokens
    return (.addModules names, rest)
  | .limitModules => do
    let (names, rest) ← readNames keyword.specialWords tokens
    return (.limitModules names, rest)
  | .addReads => do
    let (names, rest) ← readNames keyword.specialWords tokens
    return (.addReads names, rest)
  | .addExports => do
    let (package, rest) ← readPackage tokens
    let (names, rest) ← readNames keyword.specialWords rest
    return (.addExports package names, rest)
  | .addOpens => do
    let (package, rest) ← readPackage tokens
    let (names, rest) ← readNames keyword.specialWords rest
    return (.addOpens package names, rest)

theorem length_of_readNames {specialWords : List String} {tokens after : Tokens}
    {names : List String} (read : readNames specialWords tokens = .ok (names, after)) :
    after.length < tokens.length := by
  fun_induction readNames specialWords tokens generalizing names with
  | case1 text line allowed line' rest =>
    cases read
    simp only [Tokens.length]
    omega
  | case2 text line allowed line' more found rest again ih =>
    cases read
    have shorter := ih again
    simp only [Tokens.length]
    omega
  | case3 => cases read
  | case4 => cases read
  | case5 => cases read
  | case6 => cases read

theorem length_of_expectWord {word : String} {tokens after : Tokens}
    (read : expectWord word tokens = .ok after) : after.length < tokens.length := by
  unfold expectWord at read
  split at read
  · split at read
    · cases read
      simp only [Tokens.length]
      omega
    · cases read
  · cases read

theorem length_of_readName {kind : NameKind} {specialWords : List String}
    {tokens after : Tokens} {name : String}
    (read : readName kind specialWords tokens = .ok (name, after)) :
    after.length < tokens.length := by
  unfold readName at read
  split at read
  · split at read
    · cases read
      simp only [Tokens.length]
      omega
    · cases read
  · cases read

theorem length_of_readPackage {tokens after : Tokens} {package : String}
    (read : readPackage tokens = .ok (package, after)) : after.length < tokens.length := by
  unfold readPackage at read
  cases first : readName .package [] tokens with
  | error fault => simp [first, bind, Except.bind] at read
  | ok found =>
    obtain ⟨name, rest⟩ := found
    cases second : expectWord "to" rest with
    | error fault => simp [first, second, bind, Except.bind] at read
    | ok remaining =>
      simp only [first, second, bind, Except.bind, pure, Except.pure, Except.ok.injEq,
        Prod.mk.injEq] at read
      obtain ⟨_, rfl⟩ := read
      have := length_of_readName first
      have := length_of_expectWord second
      omega

theorem length_of_readBody {keyword : Keyword} {tokens after : Tokens} {directive : Directive}
    (read : readBody keyword tokens = .ok (directive, after)) :
    after.length < tokens.length := by
  have plain : ∀ (words : List String) (build : List String → Directive) (start : Tokens),
      (do
        let (names, rest) ← readNames words start
        return (build names, rest) : Except Fault (Directive × Tokens)) = .ok (directive, after) →
      after.length < start.length := by
    intro words build start read
    cases found : readNames words start with
    | error fault => simp [found, bind, Except.bind] at read
    | ok pair =>
      simp only [found, bind, Except.bind, pure, Except.pure, Except.ok.injEq,
        Prod.mk.injEq] at read
      obtain ⟨_, rfl⟩ := read
      exact length_of_readNames found
  have qualified : ∀ (words : List String) (build : String → List String → Directive),
      (do
        let (package, rest) ← readPackage tokens
        let (names, rest) ← readNames words rest
        return (build package names, rest) : Except Fault (Directive × Tokens)) =
          .ok (directive, after) →
      after.length < tokens.length := by
    intro words build read
    cases found : readPackage tokens with
    | error fault => simp [found, bind, Except.bind] at read
    | ok pair =>
      obtain ⟨package, rest⟩ := pair
      simp only [found] at read
      have shorter := length_of_readPackage found
      have := plain words (build package) rest read
      omega
  unfold readBody at read
  cases keyword with
  | addModules => exact plain _ .addModules _ read
  | limitModules => exact plain _ .limitModules _ read
  | addReads => exact plain _ .addReads _ read
  | addExports => exact qualified _ .addExports read
  | addOpens => exact qualified _ .addOpens read

def readDirectives (tokens : Tokens) : Except Fault (List Directive × Tokens) :=
  match tokens with
  | .cons (.word text) line rest =>
    match Keyword.ofWord? text with
    | some keyword =>
      match _read : readBody keyword rest with
      | .error fault => .error fault
      | .ok (directive, more) =>
        match readDirectives more with
        | .error fault => .error fault
        | .ok (directives, after) => .ok (directive :: directives, after)
    | none =>
      match rest with
      | .openComment _ => .error (refuse .unknownKeyword rest)
      | _ => .error (refuse .unknownKeyword (.cons (.word text) line rest))
  | _ => .ok ([], tokens)
termination_by tokens.length
decreasing_by
  have := length_of_readBody _read
  simp only [Tokens.length]
  omega

end Reading

def Declaration.ofTokens (tokens : Tokens) : Except Fault Declaration := do
  let rest ← Reading.expectWord "patch-module" tokens
  let (module, rest) ← Reading.readName .module [] rest
  let rest ← Reading.expectMark .leftBrace rest
  let (directives, rest) ← Reading.readDirectives rest
  let rest ← Reading.expectMark .rightBrace rest
  match rest with
  | .endOfFile _ => return ⟨module, directives⟩
  | _ => throw (Reading.refuse .expectedEnd rest)

def Declaration.ofText (text : String) : Except Fault Declaration :=
  Declaration.ofTokens (Tokens.ofText text)

end ModulePlan.Patch
