/-
Patch files that are loaded one after another, good and faulty ones.

A faulty file leaves nothing behind, so only the good ones count.  Two files of one module that
are loaded in turn come to what one file with the directives of both comes to.
-/

import ModulePlan.Proofs.CompilationUnit
import ModulePlan.Proofs.ModulePatch.Merging
import ModulePlan.Proofs.Patch.Meaning

namespace ModulePlan

open Patch

namespace CompilationUnit

/-- A patch file to be loaded: the place of the full patch and the text. -/
abbrev LoadCall := Nat × String

/-- Loads files one after another.  A fault is caught, and the next file is loaded. -/
def loadEach (unit : CompilationUnit) : List LoadCall → CompilationUnit
  | [] => unit
  | (index, text) :: rest =>
    match unit.load index text with
    | .ok loaded => loaded.loadEach rest
    | .error _ => unit.loadEach rest

/-- The files among them that are loaded without a fault when their turn comes. -/
def loadable (unit : CompilationUnit) : List LoadCall → List LoadCall
  | [] => []
  | (index, text) :: rest =>
    match unit.load index text with
    | .ok loaded => (index, text) :: loaded.loadable rest
    | .error _ => unit.loadable rest

/-- Loads files one after another, up to the first fault. -/
def loadAll (unit : CompilationUnit) (calls : List LoadCall) :
    Except Patch.Fault CompilationUnit :=
  calls.foldlM (fun unit call => unit.load call.1 call.2) unit

theorem load_of_read {text : String} {declaration : Declaration}
    (read : Declaration.ofText text = .ok declaration) (unit : CompilationUnit) (index : Nat) :
    unit.load index text = .ok (unit.apply index declaration) := by
  rw [load_eq, read]
  rfl

theorem load_of_fault {text : String} {fault : Patch.Fault}
    (refused : Declaration.ofText text = .error fault) (unit : CompilationUnit) (index : Nat) :
    unit.load index text = .error fault := by
  rw [load_eq, refused]
  rfl

theorem loadAll_cons {unit loaded : CompilationUnit} {index : Nat} {text : String}
    (read : unit.load index text = .ok loaded) (rest : List LoadCall) :
    unit.loadAll ((index, text) :: rest) = loaded.loadAll rest := by
  unfold loadAll
  rw [List.foldlM_cons, read]
  rfl

/-- Whether a file is faulty is settled by its text alone. -/
theorem loadable_eq (unit : CompilationUnit) (calls : List LoadCall) :
    unit.loadable calls = calls.filter fun call => (Declaration.ofText call.2).isOk := by
  induction calls generalizing unit with
  | nil => rfl
  | cons call rest ih =>
      obtain ⟨index, text⟩ := call
      unfold loadable
      cases read : Declaration.ofText text with
      | ok declaration =>
          rw [load_of_read read, List.filter_cons_of_pos (by rw [read]; rfl)]
          exact congrArg _ (ih _)
      | error fault =>
          rw [load_of_fault read, List.filter_cons_of_neg (by rw [read]; exact Bool.false_ne_true)]
          exact ih unit

/-- The files without a fault, loaded alone, all load, and they come to the same. -/
theorem loadAll_loadable (unit : CompilationUnit) (calls : List LoadCall) :
    unit.loadAll (unit.loadable calls) = .ok (unit.loadEach calls) := by
  induction calls generalizing unit with
  | nil => rfl
  | cons call rest ih =>
      obtain ⟨index, text⟩ := call
      unfold loadable loadEach
      cases loaded : unit.load index text with
      | error fault => exact ih unit
      | ok after => exact (loadAll_cons loaded _).trans (ih after)

/-- Two files of one module change the patches and the modules of the compilation as one file
with the directives of both does, but for the requests for the test dependencies. -/
theorem apply_apply (unit : CompilationUnit) (index : Nat) (module : String)
    (directives others : List Directive) :
    (unit.apply index ⟨module, directives⟩).apply index ⟨module, others⟩ =
      (unit.apply index ⟨module, directives ++ others⟩).modify index fun patch =>
        { patch with
          addTestModules := (⟨module, others⟩ : Declaration).overrides.addTestModules
          readTestModules := (⟨module, others⟩ : Declaration).overrides.readTestModules } := by
  unfold apply modify RootModules.addAll
  simp only [List.modify_modify_eq, Function.comp_def, ModulePatch.apply_apply,
    Declaration.overrides_append, Overrides.append, DistinctList.union_union]

/-- Loading is all or nothing: whatever files are loaded in whatever order, those with a fault
do not count, and which have one is settled by their texts alone.  And it composes: a file that
declares a module with some directives, and then one that declares it with others, leave what a
single file with the directives of both leaves, whatever was there before.  That file is loaded
without a fault, too.  Only the requests for the test dependencies are those of the second file
alone. -/
theorem load_composes (unit : CompilationUnit) :
    (∀ calls,
      unit.loadable calls = calls.filter (fun call => (Declaration.ofText call.2).isOk) ∧
        unit.loadAll (unit.loadable calls) = .ok (unit.loadEach calls)) ∧
    ∀ index module directives others first second both,
      Declaration.ofText first = .ok ⟨module, directives⟩ →
      Declaration.ofText second = .ok ⟨module, others⟩ →
      (Tokens.ofText both).isComplete = true →
      (Tokens.ofText both).bare = (⟨module, directives ++ others⟩ : Declaration).tokens →
      ∃ once, unit.load index both = .ok once ∧
        unit.loadAll [(index, first), (index, second)] =
          .ok (once.modify index fun patch =>
            { patch with
              addTestModules := decide
                ("TEST-MODULE-PATH" ∈ (⟨module, others⟩ : Declaration).names .addModules)
              readTestModules := decide
                ("TEST-MODULE-PATH" ∈ (⟨module, others⟩ : Declaration).names .addReads) }) := by
  refine ⟨fun calls => ⟨unit.loadable_eq calls, unit.loadAll_loadable calls⟩, ?_⟩
  intro index module directives others first second both firstRead secondRead complete written
  obtain ⟨_, ⟨valid, proper⟩, _⟩ := Declaration.ofText_eq_ok.mp firstRead
  obtain ⟨_, otherProper, _⟩ := Declaration.ofText_eq_ok.mp secondRead
  have read : Declaration.ofText both = .ok ⟨module, directives ++ others⟩ := by
    rw [Declaration.ofText_eq_ok]
    refine ⟨complete, ⟨valid, ?_⟩, written⟩
    exact List.forall_mem_append.mpr ⟨proper, otherProper.2⟩
  refine ⟨_, load_of_read read unit index, ?_⟩
  have inTurn : unit.loadAll [(index, first), (index, second)] =
      .ok ((unit.apply index ⟨module, directives⟩).apply index ⟨module, others⟩) := by
    rw [loadAll_cons (load_of_read firstRead unit index),
      loadAll_cons (load_of_read secondRead _ index)]
    rfl
  have said := Overrides.follow_of_proper otherProper
  have added : (⟨module, others⟩ : Declaration).overrides.addTestModules =
      decide ("TEST-MODULE-PATH" ∈ (⟨module, others⟩ : Declaration).names .addModules) := by
    rw [Bool.eq_iff_iff, decide_eq_true_eq]
    exact said.addTestModules
  have readers : (⟨module, others⟩ : Declaration).overrides.readTestModules =
      decide ("TEST-MODULE-PATH" ∈ (⟨module, others⟩ : Declaration).names .addReads) := by
    rw [Bool.eq_iff_iff, decide_eq_true_eq]
    exact said.readTestModules
  rw [inTurn, apply_apply, added, readers]

/-- A package is exported again by the second file, behind another one, and the files ask for
the test dependencies under different keywords. -/
theorem load_composes_repeated :
    let unit := (CompilationUnit.create {} (some "n")).2
    let first := "patch-module m \x7b add-modules TEST-MODULE-PATH; add-exports p to b; \x7d"
    let second :=
      "patch-module m \x7b add-exports q to c; add-exports p to a, b; " ++
        "add-reads TEST-MODULE-PATH; \x7d"
    let both :=
      "patch-module m \x7b add-modules TEST-MODULE-PATH; add-exports p to b; // more\n" ++
        "add-exports q to c; add-exports p to a, b; add-reads TEST-MODULE-PATH; \x7d"
    ∃ once, unit.load 0 both = .ok once ∧
      unit.loadAll [(0, first), (0, second)] =
        .ok (once.modify 0 fun patch =>
          { patch with addTestModules := false, readTestModules := true }) := by
  intro unit first second both
  let directives := [Directive.addModules ["TEST-MODULE-PATH"], .addExports "p" ["b"]]
  let others :=
    [Directive.addExports "q" ["c"], .addExports "p" ["a", "b"], .addReads ["TEST-MODULE-PATH"]]
  have firstRead : Declaration.ofText first = .ok ⟨"m", directives⟩ :=
    ok_of_toOption (by decide +kernel)
  have secondRead : Declaration.ofText second = .ok ⟨"m", others⟩ :=
    ok_of_toOption (by decide +kernel)
  have bothRead : Declaration.ofText both = .ok ⟨"m", directives ++ others⟩ :=
    ok_of_toOption (by decide +kernel)
  obtain ⟨complete, _, written⟩ := Declaration.ofText_eq_ok.mp bothRead
  exact (load_composes unit).2 0 "m" directives others first second both firstRead secondRead
    complete written

end CompilationUnit

end ModulePlan
