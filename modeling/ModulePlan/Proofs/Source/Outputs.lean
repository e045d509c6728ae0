/-
Where the classes of a module and a release go.

A valid module name and the text of a number are each one step of a path, and no step up.  So an
output directory is the base with some steps behind it, from which the module and the release can
be told, and it stays below the base also where the base itself has steps up.
-/

import Mathlib
import ModulePlan.Proofs.Patch.ProperNames
import ModulePlan.Proofs.Source.Counting
import ModulePlan.Proofs.Text.Fields

namespace ModulePlan

/-! ### Steps of a path -/

/-- A text that leads from a directory to something in it. -/
structure IsStep (text : String) : Prop where
  proper : FilePath.isProperName text.toList = true
  down : text ≠ ".."
  single : '/' ∉ text.toList

namespace IsStep

variable {text : String}

theorem ofText (step : IsStep text) : FilePath.ofText text = ⟨.relative, [text]⟩ := by
  have root : FilePath.rootOf text.toList = .relative := by
    unfold FilePath.rootOf
    cases split : text.toList with
    | nil => rfl
    | cons c rest =>
        have noSlash : c ≠ '/' := by
          rintro rfl
          exact step.single (split ▸ List.mem_cons_self)
        rw [List.takeWhile_cons_of_neg (by simpa using noSlash)]
        rfl
  have names : FilePath.namesOf text.toList = [text] := by
    unfold FilePath.namesOf
    rw [Text.fields_of_not_mem step.single, List.filter_cons_of_pos step.proper,
      List.filter_nil, List.map_singleton, String.ofList_toList]
  unfold FilePath.ofText
  rw [root, names]

theorem join (step : IsStep text) (path : FilePath) :
    path.join text = path.append ⟨.relative, [text]⟩ := by
  unfold FilePath.join
  rw [step.ofText]

/-- Valid names hold characters of identifiers and dots, but are not made up of dots. -/
theorem of_valid (valid : isValidName text = true) : IsStep text where
  proper := by
    have improper : isValidName "" = false ∧ isValidName "." = false := by decide
    unfold FilePath.isProperName
    rw [Bool.and_eq_true, decide_eq_true_eq, decide_eq_true_eq]
    constructor
    · intro empty
      rw [String.toList_eq_nil_iff.mp empty, improper.1] at valid
      cases valid
    · intro dot
      have same : text = "." := String.toList_inj.mp dot
      rw [same, improper.2] at valid
      cases valid
  down := by
    rintro rfl
    have improper : isValidName ".." = false := by decide
    rw [improper] at valid
    cases valid
  single := Patch.not_mem_of_valid valid (by decide) (by decide)

private theorem isDigit_or_sign {number : Int} {c : Char} (present : c ∈ number.repr.toList) :
    c.isDigit = true ∨ c = '-' := by
  have digits : ∀ {size : Nat}, c ∈ size.repr.toList → c.isDigit = true := by
    intro size within
    rw [Nat.toList_repr] at within
    exact Nat.isDigit_of_mem_toDigits (by decide) (by decide) within
  rw [Int.repr_eq_if] at present
  split at present
  · exact Or.inl (digits present)
  · rw [String.toList_append, List.mem_append] at present
    rcases present with sign | within
    · exact Or.inr (List.mem_singleton.mp sign)
    · exact Or.inl (digits within)

theorem of_number (number : Int) : IsStep (toString number) := by
  rw [Int.toString_eq_repr]
  have free : ∀ c, c.isDigit = false → c ≠ '-' → c ∉ number.repr.toList := by
    intro c noDigit noSign present
    rcases isDigit_or_sign present with digit | sign
    · rw [noDigit] at digit
      cases digit
    · exact noSign sign
  have noDot := free '.' (by decide) (by decide)
  refine ⟨?_, ?_, free '/' (by decide) (by decide)⟩
  · unfold FilePath.isProperName
    rw [Bool.and_eq_true, decide_eq_true_eq, decide_eq_true_eq]
    constructor
    · intro empty
      rw [String.toList_eq_nil_iff, Int.repr_eq_if] at empty
      split at empty
      · exact Nat.repr_ne_empty empty
      · exact absurd (String.append_eq_empty_iff.mp empty).1 (by decide)
    · intro dot
      exact noDot (dot ▸ List.mem_cons_self)
  · intro up
    exact noDot (up ▸ List.mem_cons_self)

end IsStep

namespace SourceDirectory

/-! ### Output directories -/

/-- The steps from the base to an output directory. -/
def outputSteps (module : Option String) (release : Option Int) : List String :=
  module.toList ++
    match release with
    | some number => ["META-INF", "versions", toString number]
    | none => []

/-- There is one step for a module and there are three for a release. -/
theorem outputSteps_inj {module other : Option String} {release another : Option Int}
    (same : outputSteps module release = outputSteps other another) :
    module = other ∧ release = another := by
  -- The lists differ in length where a part is given on one side only.
  cases module <;> cases other <;> cases release <;> cases another <;> simp_all [outputSteps]

private theorem isStep_meta : IsStep "META-INF" ∧ IsStep "versions" :=
  ⟨⟨by decide, by decide, by decide⟩, ⟨by decide, by decide, by decide⟩⟩

theorem isStep_of_mem_outputSteps {module : Option String} {release : Option Int}
    (valid : ∀ name ∈ module, isValidName name = true) {step : String}
    (present : step ∈ outputSteps module release) : IsStep step := by
  rcases List.mem_append.mp present with named | released
  · exact .of_valid (valid step (Option.mem_toList.mp named))
  · cases release with
    | none => cases released
    | some number =>
        simp only [List.mem_cons, List.not_mem_nil, or_false] at released
        rcases released with rfl | rfl | rfl
        · exact isStep_meta.1
        · exact isStep_meta.2
        · exact .of_number number

theorem outputBelow_eq {module : Option String} (valid : ∀ name ∈ module, isValidName name = true)
    (base : FilePath) (release : Option Int) :
    outputBelow base module release = base.append ⟨.relative, outputSteps module release⟩ := by
  have further : ∀ (names : List String) {text : String}, IsStep text →
      (base.append ⟨.relative, names⟩).join text = base.append ⟨.relative, names ++ [text]⟩ := by
    intro names text step
    rw [step.join]
    exact congrArg (FilePath.mk base.root) (List.append_assoc base.names names [text])
  have own : outputBelow base module none = base.append ⟨.relative, module.toList⟩ := by
    cases module with
    | none => exact congrArg (FilePath.mk base.root) (List.append_nil base.names).symm
    | some name => exact (IsStep.of_valid (valid name rfl)).join base
  unfold outputSteps
  cases release with
  | none => rw [own, List.append_nil]
  | some number =>
      change (((outputBelow base module none).join "META-INF").join "versions").join _ = _
      rw [own, further _ isStep_meta.1, further _ isStep_meta.2, further _ (.of_number number),
        List.append_assoc, List.append_assoc]
      rfl

/-- A module name as it may be given: blank for none, or valid. -/
def IsNaming (module : Option String) : Prop :=
  ∀ name ∈ module, Text.isBlankText name = true ∨ isValidName name = true

theorem valid_properModule {module : Option String} (naming : IsNaming module) :
    ∀ name ∈ properModule module, isValidName name = true := by
  intro name given
  obtain ⟨present, visible⟩ := Option.filter_eq_some_iff.mp given
  rcases naming name present with blank | valid
  · rw [blank] at visible
    cases visible
  · exact valid

theorem output_create {module : Option String} (naming : IsNaming module) (root base : FilePath)
    (release : Option Int) (kind : FileKind) :
    (create root base module release kind).output =
      base.append ⟨.relative, outputSteps (properModule module) release⟩ :=
  outputBelow_eq (valid_properModule naming) base release

theorem resolve_output {module : Option String} (naming : IsNaming module)
    (root base : FilePath) (release : Option Int) (kind : FileKind) (here : List String) :
    (create root base module release kind).output.resolve here =
      (base.resolve here).append ⟨.relative, outputSteps (properModule module) release⟩ := by
  rw [output_create naming]
  apply FilePath.resolve_append
  intro up
  exact (isStep_of_mem_outputSteps (valid_properModule naming) up).down rfl

/-- Below one base, directories have one output exactly if they are for one module and one
release, also where outputs are told apart as places.  An output is the base or lies below it, as a
path and as a place. -/
theorem outputs_apart {module other : Option String} (naming : IsNaming module)
    (otherNaming : IsNaming other) (base root another : FilePath) (release later : Option Int)
    (kind next : FileKind) :
    let left := create root base module release kind
    let right := create another base other later next
    (left.output = right.output ↔ left.module = right.module ∧ left.release = right.release) ∧
      (∀ here, left.output.resolve here = right.output.resolve here →
        left.output = right.output) ∧
      base.contains left.output = true ∧
      ∀ here, (base.resolve here).contains (left.output.resolve here) = true := by
  intro left right
  have leftOutput : left.output = _ := output_create naming root base release kind
  have rightOutput : right.output = _ := output_create otherNaming another base later next
  have leftPlace : ∀ here, left.output.resolve here = _ :=
    resolve_output naming root base release kind
  have rightPlace : ∀ here, right.output.resolve here = _ :=
    resolve_output otherNaming another base later next
  refine ⟨?_, ?_, ?_, ?_⟩
  · rw [leftOutput, rightOutput]
    constructor
    · intro same
      exact outputSteps_inj (Discovery.append_injective base same)
    · intro same
      exact congrArg₂ (fun module release => base.append ⟨.relative, outputSteps module release⟩)
        same.1 same.2
  · intro here same
    rw [leftPlace, rightPlace] at same
    rw [leftOutput, rightOutput, Discovery.append_injective (base.resolve here) same]
  · rw [leftOutput]
    exact FilePath.contains_iff.mpr ⟨_, rfl⟩
  · intro here
    rw [leftPlace]
    exact FilePath.contains_iff.mpr ⟨_, rfl⟩

/-- A base beside the working directory, a blank name and a release below zero. -/
theorem outputs_apart_beside :
    let base := FilePath.ofText "..//out/."
    let left := create (.ofText "src") base (some "org.$x") (some (-1)) .source
    let right := create (.ofText "src") base (some " ") none .source
    IsNaming (some "org.$x") ∧ IsNaming (some " ") ∧
      left.output.toText = "../out/org.$x/META-INF/versions/-1" ∧
      right.output.toText = "../out" ∧ left.output ≠ right.output ∧
      base.contains left.output = true := by
  intro base left right
  have naming : IsNaming (some "org.$x") := by
    rintro name ⟨⟩
    exact Or.inr (by decide)
  have blank : IsNaming (some " ") := by
    rintro name ⟨⟩
    exact Or.inl (by decide)
  obtain ⟨told, _, below, _⟩ := outputs_apart naming blank base (.ofText "src") (.ofText "src")
    (some (-1)) none .source .source
  refine ⟨naming, blank, by decide, by decide, ?_, below⟩
  intro same
  exact nomatch (told.mp same).2

end SourceDirectory

end ModulePlan
