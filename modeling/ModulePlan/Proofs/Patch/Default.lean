/-
The patch file that says what holds without one.

It asks for the modules of the test dependencies to be added and read, and for nothing else.
-/

import ModulePlan.ModulePatch
import ModulePlan.Proofs.Patch.Layout
import ModulePlan.Text.Lines

namespace ModulePlan.Patch

def defaultText (module : String) : String :=
  "patch-module " ++ module ++
    " \x7b add-modules TEST-MODULE-PATH; add-reads TEST-MODULE-PATH; \x7d"

def defaultDeclaration (module : String) : Declaration where
  module := module
  directives := [.addModules [testModulePath], .addReads [testModulePath]]

def defaultLayout (module : String) : Layout :=
  let space := [Gap.blank ' ']
  .next [] (.word "patch-module") (.next space (.word module) (.next space (.mark .leftBrace)
    (.next space (.word "add-modules") (.next space (.word "TEST-MODULE-PATH")
      (.next [] (.mark .semicolon) (.next space (.word "add-reads")
        (.next space (.word "TEST-MODULE-PATH") (.next [] (.mark .semicolon)
          (.next space (.mark .rightBrace) (.last [] none))))))))))

private theorem chars_defaultLayout (module : String) :
    String.ofList (defaultLayout module).chars = defaultText module := by
  apply String.toList_inj.mp
  unfold defaultText
  rw [String.toList_ofList, String.toList_append, String.toList_append, List.append_assoc]
  rfl

private theorem isProper_defaultLayout {module : String} (valid : isValidName module = true) :
    (defaultLayout module).IsProper := by
  have named := Tokens.isWritable_of_valid valid
  have apart : ∀ {token : Token} {rest : Layout}, rest.beginsWithWord = false →
      rest.beginsWithComment = false → Layout.IsApart token rest :=
    fun noWord noComment => ⟨fun _ => noWord, fun _ => noComment⟩
  have space : ∀ gap ∈ [Gap.blank ' '], gap.IsProper := by decide
  have nothing : ∀ gap ∈ ([] : List Gap), gap.IsProper := List.forall_mem_nil _
  exact ⟨nothing, by decide, apart rfl rfl,
    space, named, apart rfl rfl,
    space, trivial, apart rfl rfl,
    space, by decide, apart rfl rfl,
    space, by decide, apart rfl rfl,
    nothing, trivial, apart rfl rfl,
    space, by decide, apart rfl rfl,
    space, by decide, apart rfl rfl,
    nothing, trivial, apart rfl rfl,
    space, trivial, apart rfl rfl,
    nothing, nofun⟩

private theorem areProper_testModulePath {words : List String} (listed : testModulePath ∈ words) :
    AreProper words [testModulePath] :=
  ⟨List.cons_ne_nil _ _, List.forall_mem_singleton.mpr (Or.inl listed)⟩

theorem ofText_defaultText {module : String} (valid : isValidName module = true) :
    Declaration.ofText (defaultText module) = .ok (defaultDeclaration module) := by
  have found : Tokens.ofText (defaultText module) = (defaultLayout module).lined 1 := by
    rw [← chars_defaultLayout, Tokens.ofText_chars (isProper_defaultLayout valid)]
  rw [Declaration.ofText_eq_ok, found]
  refine ⟨rfl, ⟨valid, ?_⟩, rfl⟩
  refine List.forall_mem_cons.mpr ⟨?_, List.forall_mem_singleton.mpr ?_⟩
  · exact areProper_testModulePath (by decide)
  · exact areProper_testModulePath (by decide)

/-! ### Reading the file -/

private theorem unifyFrom_of_not_mem {cs : List Char} (absent : '\r' ∉ cs) (seen : List Char) :
    Text.unifyFrom seen cs = seen.reverse ++ cs := by
  induction cs generalizing seen with
  | nil =>
      rw [Text.unifyFrom, List.append_nil]
  | cons c rest ih =>
      rw [List.mem_cons, not_or] at absent
      obtain ⟨here, later⟩ := absent
      have noReturn : c ≠ '\r' := Ne.symm here
      have step : Text.unifyFrom seen (c :: rest) = Text.unifyFrom (c :: seen) rest := by
        rw [Text.unifyFrom]
        · rw [if_neg noReturn]
        · rintro _ rfl _
          exact noReturn rfl
      rw [step, ih later, List.reverse_cons, List.append_assoc]
      rfl

private theorem not_mem_of_plain {cs : List Char} (plain : ∀ c ∈ cs, Tokens.isPlain c = true) :
    '\r' ∉ cs := by
  intro present
  exact absurd (plain '\r' present) (by decide)

theorem unifyLineEnds_defaultText {module : String} (valid : isValidName module = true) :
    Text.unifyLineEnds (defaultText module).toList = (defaultText module).toList := by
  have name := not_mem_of_plain (Tokens.plain_of_valid valid).2
  have absent : '\r' ∉ (defaultText module).toList := by
    unfold defaultText
    rw [String.toList_append, String.toList_append, List.mem_append, List.mem_append]
    intro given
    rcases given with (front | middle) | back
    · exact absurd front (by decide)
    · exact name middle
    · exact absurd back (by decide)
  exact unifyFrom_of_not_mem absent []

/-! ### Merging the file -/

theorem isBlankText_of_valid {name : String} (valid : isValidName name = true) :
    Text.isBlankText name = false := by
  obtain ⟨some, plain⟩ := Tokens.plain_of_valid valid
  unfold Text.isBlankText
  cases cs : name.toList with
  | nil => exact absurd cs some
  | cons c rest =>
      rw [cs] at plain
      have visible := plain c List.mem_cons_self
      unfold Tokens.isPlain at visible
      simp only [Bool.and_eq_true, Bool.not_eq_true'] at visible
      rw [List.all_cons, visible.1.1, Bool.false_and]

/-- The default patch file says what a patch asks before any file is read. -/
theorem apply_defaultDeclaration {module : String} (valid : isValidName module = true) :
    (ModulePatch.create (some module)).apply (defaultDeclaration module) =
      ModulePatch.create (some module) := by
  have named : ModulePatch.create (some module) = { module := some module } := by
    unfold ModulePatch.create
    rw [Option.filter_some_pos]
    rw [isBlankText_of_valid valid]
    rfl
  rw [named]
  rfl

end ModulePlan.Patch
