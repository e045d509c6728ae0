/-
Which module name is read from a source file.

White space and comments may stand between any two parts of a declaration, and gaps, imports and
annotations before it.  Whatever parser finds the declaration and its name, the name that is read
has the identifiers with dots between them, and whatever comments stand among them.
-/

import ModulePlan.ModuleDeclaration
import ModulePlan.Proofs.Host
import ModulePlan.Proofs.JavaSource
import ModulePlan.Proofs.JavaSource.Name

namespace ModulePlan.ModuleDeclaration

open JavaSource

/-! ### The children of the root -/

section Children

variable {parse : List UInt8 → List SyntaxNode} {tokens : List Token}
  (faithful : IsFaithful parse tokens)
include faithful

theorem writtenName?_of_isProper {declaration : Declaration} (same : tokens = declaration.tokens)
    (sound : declaration.IsProper) :
    writtenName? (parse (bytesOf tokens)) = some (bytesOf declaration.name.tokens) := by
  unfold writtenName?
  cases found : (parse (bytesOf tokens)).find? fun node => node.kind = moduleKind with
  | none =>
      obtain ⟨node, present, kind⟩ := faithful.child.mpr ⟨declaration, same, sound⟩
      exact absurd (decide_eq_true kind) (List.find?_eq_none.mp found node present)
  | some node =>
      have kind : node.kind = moduleKind := by
        have met := List.find?_some found
        exact of_decide_eq_true met
      exact faithful.name declaration same sound node (List.mem_of_find?_eq_some found) kind

theorem writtenName?_of_undeclared (undeclared : ¬DeclaresModule tokens) :
    writtenName? (parse (bytesOf tokens)) = none := by
  have found : ((parse (bytesOf tokens)).find? fun node => node.kind = moduleKind) = none := by
    refine List.find?_eq_none.mpr fun node present kind => undeclared ?_
    exact faithful.child.mp ⟨node, present, of_decide_eq_true kind⟩
  unfold writtenName?
  rw [found]
  rfl

end Children

/-! ### Reading -/

/-- The file of a root holds some bytes. -/
def HoldsBytes (host : Host) (root : FilePath) (data : List UInt8) : Prop :=
  host.node? (root.join fileName) = .ok (some (.file (.bytes data)))

theorem result_read_of_written {host : Host} {root : FilePath} {data : List UInt8} {text : String}
    (held : HoldsBytes host root data)
    (written : writtenName? (host.parseSource data) = some (Text.Utf8.encode text)) :
    (read host root).result = .ok (some (withoutBlanks text)) := by
  unfold read
  simp only [Report.result_bind, Report.result_ofExcept, exceptBind_ok,
    show host.node? (root.join fileName) = _ from held, children, written,
    Text.Utf8.decode?_encode]
  rfl

theorem result_read_of_unwritten {host : Host} {root : FilePath} {data : List UInt8}
    (held : HoldsBytes host root data) (unwritten : writtenName? (host.parseSource data) = none) :
    (read host root).result = .ok none := by
  unfold read
  simp only [Report.result_bind, Report.result_ofExcept, exceptBind_ok,
    show host.node? (root.join fileName) = _ from held, children, unwritten]
  rfl

theorem result_read_of_absent {host : Host} {root : FilePath}
    (absent : host.isFile (root.join fileName) = .ok false) :
    (read host root).result = .ok none := by
  unfold Host.isFile at absent
  obtain ⟨node, found, other⟩ := exceptBind_eq_ok.mp absent
  unfold read
  simp only [Report.result_bind, Report.result_ofExcept, exceptBind_ok, found]
  split
  · cases other
  · rfl

theorem result_read_of_isProper {host : Host} {root : FilePath} {declaration : Declaration}
    (held : HoldsBytes host root (bytesOf declaration.tokens))
    (faithful : IsFaithful host.parseSource declaration.tokens) (sound : declaration.IsProper) :
    (read host root).result = .ok (some declaration.name.shown) := by
  rw [result_read_of_written held (writtenName?_of_isProper faithful rfl sound)]
  unfold withoutBlanks
  rw [String.toList_ofList]
  rfl

/-- Nothing is read where there is no file.  From a file that the parser is faithful to, nothing is
read exactly if it declares no module.  From a declaration the name is read as it is shown: the
identifiers with dots between them, and nothing else exactly if no comment stands among them. -/
theorem read_declared (host : Host) (root : FilePath) :
    (host.isFile (root.join fileName) = .ok false → (read host root).result = .ok none) ∧
    ∀ tokens, AreApart tokens → HoldsBytes host root (bytesOf tokens) →
      IsFaithful host.parseSource tokens →
      ((read host root).result = .ok none ↔ ¬DeclaresModule tokens) ∧
      ∀ declaration : Declaration, tokens = declaration.tokens → declaration.IsProper →
        (read host root).result = .ok (some declaration.name.shown) ∧
        (declaration.name.shown = declaration.name.joined ↔
          ∀ token ∈ declaration.name.gaps, token.isComment = false) := by
  refine ⟨result_read_of_absent, fun tokens apart held faithful => ⟨⟨?_, ?_⟩, ?_⟩⟩
  · rintro nothing ⟨declaration, rfl, sound⟩
    rw [result_read_of_isProper held faithful sound] at nothing
    cases nothing
  · intro undeclared
    exact result_read_of_unwritten held (writtenName?_of_undeclared faithful undeclared)
  · rintro declaration rfl sound
    have proper : ∀ token ∈ declaration.name.tokens, token.IsProper := by
      intro token present
      refine proper_of_areApart apart token ?_
      simp [Declaration.tokens, present]
    exact ⟨result_read_of_isProper held faithful sound, shown_eq_joined_iff sound.name proper⟩

/-- A host with one source directory, `src`, whose file holds the text of some tokens. -/
def hostOf (tokens : List Token) : Host where
  files := ⟨.ofList [(["src", fileName], .file (.bytes (bytesOf tokens)))]⟩

theorem holdsBytes_hostOf (tokens : List Token) :
    HoldsBytes (hostOf tokens) ⟨.relative, ["src"]⟩ (bytesOf tokens) := by
  rfl

/-- The written parser is faithful to a declaration. -/
theorem isFaithful_hostOf {declaration : Declaration} (apart : AreApart declaration.tokens)
    (feeds : EndAtFeeds declaration.tokens) (sound : declaration.IsProper) :
    IsFaithful (hostOf declaration.tokens).parseSource declaration.tokens :=
  isFaithful_parse apart feeds fun _ => ⟨declaration, rfl, sound⟩

/-- A comment to the end of its line, an import, an annotation with arguments, and blanks around
the dot of the name. -/
def annotated : Declaration where
  preamble :=
    .lineComment " module b \x7b".toList :: .blank '\n' ::
      .word "import".toList :: ([.blank ' ', .word ['a'], .sign '.', .sign '*'] ++ .sign ';' ::
        .blank '\n' :: .sign '@' :: ([] ++ (QualifiedName.tokens ⟨['A'], []⟩ ++
          .sign '(' :: ((.sign '\x7b' :: ([.sign '1'] ++ [.sign '\x7d'])) ++ .sign ')' ::
            .blank ' ' :: .word "open".toList :: [.blank ' ']))))
  gap := [.blank ' ']
  name := ⟨['a'], [⟨[.blank ' '], [.blank '\n'], ['b']⟩]⟩
  space := [.blank ' ']
  rest := [.sign '\x7d']

theorem read_declared_annotated :
    AreApart annotated.tokens ∧ annotated.IsProper ∧
      IsFaithful (hostOf annotated.tokens).parseSource annotated.tokens ∧
      (∀ token ∈ annotated.name.gaps, token.isComment = false) ∧
      (read (hostOf annotated.tokens) ⟨.relative, ["src"]⟩).result = .ok (some "a.b") := by
  have apart : AreApart annotated.tokens := by decide
  have feeds : EndAtFeeds annotated.tokens := by decide
  have balanced : IsBalanced (.sign '\x7b' :: ([.sign '1'] ++ [.sign '\x7d'])) :=
    .group (by decide) (.plain rfl .nil) .nil
  have preamble : IsPreamble annotated.preamble :=
    .gap rfl (.gap rfl (.importing (by decide) (.gap rfl (.marked (by decide) (by decide)
      (.arguments balanced (.gap rfl (.opening (.gap rfl .nil))))))))
  have sound : annotated.IsProper := ⟨preamble, by decide, by decide, by decide⟩
  have plain : ∀ token ∈ annotated.name.gaps, token.isComment = false := by decide
  have faithful := isFaithful_hostOf apart feeds sound
  have held := holdsBytes_hostOf annotated.tokens
  obtain ⟨shown, exactly⟩ := ((read_declared _ _).2 _ apart held faithful).2 annotated rfl sound
  refine ⟨apart, sound, faithful, plain, ?_⟩
  rw [shown, exactly.mpr plain]
  rfl

/-- A comment before the second identifier of a name. -/
def commented : Declaration where
  preamble := []
  gap := [.blank ' ']
  name := ⟨['a'], [⟨[], [.blockComment [' ', 'c', ' ']], ['b']⟩]⟩
  space := [.blank ' ']
  rest := [.sign '\x7d']

/-- A comment among the identifiers of a name is read as a part of it. -/
theorem read_commented :
    AreApart commented.tokens ∧ commented.IsProper ∧
      IsFaithful (hostOf commented.tokens).parseSource commented.tokens ∧
      (read (hostOf commented.tokens) ⟨.relative, ["src"]⟩).result =
        .ok (some "a./*c*/b") ∧ commented.name.joined = "a.b" := by
  have apart : AreApart commented.tokens := by decide
  have sound : commented.IsProper := ⟨.nil, by decide, by decide, by decide⟩
  have faithful := isFaithful_hostOf apart (by decide) sound
  refine ⟨apart, sound, faithful, ?_, rfl⟩
  exact result_read_of_isProper (holdsBytes_hostOf commented.tokens) faithful sound

end ModulePlan.ModuleDeclaration
