/-
The patches of a compilation, taken one after another.

The full patches of a unit are expanded in turn and share the modules of the compilation.
What comes out is told by the list of the patches alone: no place of a patch matters, and no
view is asked twice with two answers.
-/

import ModulePlan.CompilationUnit
import ModulePlan.Proofs.CompilerOptions
import ModulePlan.Proofs.TestModulePath.Fresh

namespace ModulePlan

namespace TestModulePath

/-- What a pass with these answers makes of the modules of the compilation and a patch. -/
def absorb (answers : List Answer) (roots : RootModules) (patch : ModulePatch) :
    RootModules × ModulePatch :=
  ((Progress.start roots patch).run (Request.ofPatch patch) answers).finish roots patch

def absorbAll (answers : List Answer) (roots : RootModules) :
    List ModulePatch → RootModules × List ModulePatch
  | [] => (roots, [])
  | patch :: rest =>
    let (roots, patch) := absorb answers roots patch
    let (roots, others) := absorbAll answers roots rest
    (roots, patch :: others)

theorem absorb_nil (roots : RootModules) (patch : ModulePatch) :
    absorb [] roots patch = (roots, patch) :=
  rfl

theorem absorbAll_nil_answers (roots : RootModules) (patches : List ModulePatch) :
    absorbAll [] roots patches = (roots, patches) := by
  induction patches with
  | nil => rfl
  | cons patch rest ih =>
      unfold absorbAll
      rw [absorb_nil]
      simp only [ih]

theorem absorb_congr {left right : List Answer}
    (same : left.map (·.descriptor) = right.map (·.descriptor)) (roots : RootModules)
    (patch : ModulePatch) : absorb left roots patch = absorb right roots patch := by
  unfold absorb
  rw [Progress.run_congr same]

theorem absorbAll_congr {left right : List Answer}
    (same : left.map (·.descriptor) = right.map (·.descriptor)) (roots : RootModules)
    (patches : List ModulePatch) :
    absorbAll left roots patches = absorbAll right roots patches := by
  induction patches generalizing roots with
  | nil => rfl
  | cons patch rest ih =>
      unfold absorbAll
      rw [absorb_congr same]
      simp only [ih]

theorem absorb_of_idle {patch : ModulePatch} (idle : (Request.ofPatch patch).isAny = false)
    (answers : List Answer) (roots : RootModules) :
    absorb answers roots patch = (roots, patch) := by
  obtain ⟨names, reads, testModules⟩ :=
    Progress.run_of_idle idle (Progress.start roots patch) answers
  unfold absorb Progress.finish
  rw [names, reads, testModules]
  rfl

/-- The modules of the compilation only grow, and nothing else about them changes. -/
theorem absorb_roots (answers : List Answer) (roots : RootModules) (patch : ModulePatch) :
    (absorb answers roots patch).1.written = roots.written ∧
      ∀ name ∈ roots.names, name ∈ (absorb answers roots patch).1.names := by
  refine ⟨rfl, ?_⟩
  intro name present
  exact (Progress.run_extends (Request.ofPatch patch) (Progress.start roots patch)
    answers).mem_names present

/-- What every pass keeps of the modules of the compilation, several passes keep. -/
theorem roots_absorbAll_induction {holds : RootModules → Prop} {answers : List Answer}
    (kept : ∀ roots patch, holds roots → holds (absorb answers roots patch).1)
    {roots : RootModules} (start : holds roots) (patches : List ModulePatch) :
    holds (absorbAll answers roots patches).1 := by
  induction patches generalizing roots with
  | nil => exact start
  | cons patch rest ih => exact ih (kept roots patch start)

/-- What every pass into a patch keeps, the passes into several patches keep. -/
theorem forall_absorbAll {holds : ModulePatch → Prop} {answers : List Answer}
    (kept : ∀ roots patch, holds patch → holds (absorb answers roots patch).2)
    {roots : RootModules} {patches : List ModulePatch} (sound : ∀ patch ∈ patches, holds patch) :
    ∀ patch ∈ (absorbAll answers roots patches).2, holds patch := by
  induction patches generalizing roots with
  | nil => exact List.forall_mem_nil _
  | cons patch rest ih =>
      obtain ⟨here, later⟩ := List.forall_mem_cons.mp sound
      exact List.forall_mem_cons.mpr ⟨kept roots patch here, ih later⟩

/-- A patch that no patch file was read into takes in what the answers come to by
themselves. -/
theorem absorb_create {answers : List Answer} (named : Progress.NoneUnnamed answers)
    (roots : RootModules) (module : Option String) :
    absorb answers roots (.create module) =
      ({ roots with names := roots.names.union (Progress.alone answers).names },
        { ModulePatch.create module with addReads := (Progress.alone answers).reads }) := by
  have asked : Request.ofPatch (.create module) = .untouched := rfl
  have start : Progress.start roots (.create module) =
      { names := roots.names, reads := .empty, testModules := .empty } := rfl
  unfold absorb
  rw [asked, start, Progress.run_untouched named]
  rfl

/-- A completed pass makes of a patch what the answers of any view that agrees make of it. -/
theorem expand_eq_absorb {inspection : Inspection} {view first : DependencyView} {runtime : Bool}
    (agrees : view.Agrees inspection first) {roots : RootModules} {patch : ModulePatch}
    (readable : (Request.ofPatch patch).isAny = true → IsReadable inspection first runtime) :
    ((expand inspection view runtime roots patch).roots,
      (expand inspection view runtime roots patch).patch) =
      absorb (testAnswers inspection first runtime) roots patch := by
  rw [expand_eq_finish]
  cases asked : (Request.ofPatch patch).isAny with
  | true => exact absorb_congr (testAnswers_congr agrees (readable asked)) roots patch
  | false =>
      have left := absorb_of_idle asked (testAnswers inspection view runtime) roots
      rw [absorb_of_idle asked]
      exact left

end TestModulePath

def PatchRef.isFull : PatchRef → Bool
  | .full _ => true
  | .readsOnly .. => false

namespace CompilationUnit

open TestModulePath

theorem patch_at_length {unit : CompilationUnit} {earlier rest : List ModulePatch}
    {patch : ModulePatch} (split : unit.patches = earlier ++ patch :: rest) :
    unit.patch earlier.length = patch := by
  unfold CompilationUnit.patch
  rw [split, List.getD_eq_getElem?_getD, List.getElem?_append_right (Nat.le_refl _),
    Nat.sub_self]
  rfl

theorem modify_at_length (earlier rest : List ModulePatch) (patch : ModulePatch)
    (change : ModulePatch → ModulePatch) :
    (earlier ++ patch :: rest).modify earlier.length change =
      earlier ++ change patch :: rest := by
  induction earlier with
  | nil => rfl
  | cons first earlier ih =>
      rw [List.cons_append, List.length_cons, List.modify_succ_cons, ih, List.cons_append]

private theorem expand_unit {inspection : Inspection} {view first : DependencyView}
    {runtime : Bool} (agrees : view.Agrees inspection first) {unit : CompilationUnit}
    {earlier rest : List ModulePatch} {patch : ModulePatch}
    (split : unit.patches = earlier ++ patch :: rest)
    (readable : (Request.ofPatch patch).isAny = true → IsReadable inspection first runtime) :
    (unit.expand inspection view runtime earlier.length).unit =
      { roots := (absorb (testAnswers inspection first runtime) unit.roots patch).1
        patches := earlier ++
          (absorb (testAnswers inspection first runtime) unit.roots patch).2 :: rest } := by
  rw [← expand_eq_absorb agrees readable]
  unfold CompilationUnit.expand CompilationUnit.modify
  simp only [patch_at_length split, split, modify_at_length]

private theorem expand_completes_iff {inspection : Inspection} {view first : DependencyView}
    {runtime : Bool} (agrees : view.Agrees inspection first) {unit : CompilationUnit}
    {earlier rest : List ModulePatch} {patch : ModulePatch}
    (split : unit.patches = earlier ++ patch :: rest) :
    (unit.expand inspection view runtime earlier.length).report.result = .ok () ↔
      ((Request.ofPatch patch).isAny = true → IsReadable inspection first runtime) := by
  unfold CompilationUnit.expand
  simp only [patch_at_length split]
  rw [TestModulePath.expand_completes_iff, isReadable_congr agrees]

private theorem expandAll_cons_eq_ok {inspection : Inspection} {view : DependencyView}
    {runtime : Bool} {unit : CompilationUnit} {index : Nat} {rest : List Nat}
    {outcome : CompilationUnit × DependencyView} :
    (expandAll inspection runtime view unit (index :: rest)).result = .ok outcome ↔
      (unit.expand inspection view runtime index).report.result = .ok () ∧
        (expandAll inspection runtime (unit.expand inspection view runtime index).view
          (unit.expand inspection view runtime index).unit rest).result = .ok outcome := by
  rw [expandAll, Report.result_bind, exceptBind_eq_ok]
  constructor
  · intro given
    rcases given with ⟨_, done, later⟩
    exact ⟨done, later⟩
  · intro given
    rcases given with ⟨done, later⟩
    exact ⟨(), done, later⟩

/-- The patches from a place on are expanded one after another, unless one of them asks for
artifacts that cannot be read. -/
theorem expandAll_eq_ok {inspection : Inspection} {view first : DependencyView} {runtime : Bool}
    (agrees : view.Agrees inspection first) {unit later : CompilationUnit}
    {earlier todo : List ModulePatch} (split : unit.patches = earlier ++ todo) :
    (∃ view', (expandAll inspection runtime view unit
        (List.range' earlier.length todo.length)).result = .ok (later, view')) ↔
      ((∃ patch ∈ todo, (Request.ofPatch patch).isAny = true) →
        IsReadable inspection first runtime) ∧
      later =
        { roots := (absorbAll (testAnswers inspection first runtime) unit.roots todo).1
          patches := earlier ++
            (absorbAll (testAnswers inspection first runtime) unit.roots todo).2 } := by
  induction todo generalizing unit earlier view with
  | nil =>
      have same : unit = { roots := unit.roots, patches := earlier ++ [] } := by
        rw [← split]
      constructor
      · intro given
        rcases given with ⟨view', done⟩
        cases done
        refine ⟨?_, same⟩
        intro given
        rcases given with ⟨patch, absent, _⟩
        cases absent
      · intro given
        rcases given with ⟨_, rfl⟩
        exact ⟨view, congrArg (fun unit => Except.ok (unit, view)) same⟩
  | cons patch rest ih =>
      have nowAgrees :
          (unit.expand inspection view runtime earlier.length).view.Agrees inspection first :=
        (expand_view_agrees inspection view runtime _ _).trans agrees
      rw [List.length_cons, List.range'_succ]
      simp only [expandAll_cons_eq_ok, exists_and_left, expand_completes_iff agrees split]
      by_cases readable :
          (Request.ofPatch patch).isAny = true → IsReadable inspection first runtime
      · have next := expand_unit agrees split readable
        have nextSplit : (unit.expand inspection view runtime earlier.length).unit.patches =
            (earlier ++ [(absorb (testAnswers inspection first runtime) unit.roots patch).2]) ++
              rest := by
          rw [next, List.append_assoc]
          rfl
        have others := ih nowAgrees nextSplit
        rw [List.length_append, List.length_singleton] at others
        rw [others, next, List.exists_mem_cons_iff, or_imp, and_assoc, List.append_assoc]
        rfl
      · constructor
        · intro given
          rcases given with ⟨here, _⟩
          exact absurd here readable
        · intro given
          rcases given with ⟨all, _⟩
          exact absurd (fun asked => all ⟨patch, List.mem_cons_self, asked⟩) readable

theorem load_eq (unit : CompilationUnit) (index : Nat) (text : String) :
    unit.load index text = (Patch.Declaration.ofText text).map (unit.apply index) := by
  unfold load
  cases Patch.Declaration.ofText text with
  | error fault => rfl
  | ok declaration => rfl

theorem sameReads_eq_some {index : Nat} {name : String} {ref : PatchRef} :
    sameReads index (some name) = some ref ↔
      Text.isBlankText name = false ∧ ref = .readsOnly name index := by
  cases blank : Text.isBlankText name with
  | true => simp [sameReads, blank]
  | false =>
      simp only [sameReads, blank, Bool.false_eq_true, if_false, Option.some.injEq, true_and]
      exact eq_comm

/-! ### Writing -/

def refOffers (unit : CompilationUnit) (opens : Bool) : PatchRef → List Offer
  | .full index => (unit.patch index).offers opens
  | .readsOnly module index => offer "add-reads" (some module) (unit.patch index).addReads

/-- A patch as it is written: a module that reads what another one reads has no other changes. -/
def asWritten (unit : CompilationUnit) : PatchRef → ModulePatch
  | .full index => unit.patch index
  | .readsOnly module index =>
    { module := some module, addReads := (unit.patch index).addReads }

theorem refOffers_eq (unit : CompilationUnit) (opens : Bool) (ref : PatchRef) :
    unit.refOffers opens ref = (unit.asWritten ref).offers opens := by
  cases ref with
  | full index => rfl
  | readsOnly module index =>
      cases opens with
      | false => exact ((List.append_nil _).trans (List.append_nil _)).symm
      | true => exact ((List.append_nil _).trans (List.append_nil _)).symm

theorem module_asWritten (unit : CompilationUnit) (ref : PatchRef) :
    (unit.asWritten ref).module = unit.module ref := by
  cases ref with
  | full index => rfl
  | readsOnly module index => rfl

/-- What is written of a patch, apart from the modules of the compilation, depends on the
patches alone. -/
theorem asWritten_congr {left right : CompilationUnit} (same : left.patches = right.patches) :
    left.asWritten = right.asWritten := by
  funext ref
  unfold asWritten CompilationUnit.patch
  rw [same]

theorem refOffers_congr {left right : CompilationUnit} (same : left.patches = right.patches)
    (opens : Bool) : left.refOffers opens = right.refOffers opens := by
  funext ref
  rw [refOffers_eq, refOffers_eq, asWritten_congr same]

theorem module_congr {left right : CompilationUnit} (same : left.patches = right.patches) :
    left.module = right.module := by
  funext ref
  rw [← module_asWritten, ← module_asWritten, asWritten_congr same]

/-- A full patch carries the option for the modules of the compilation, in front of its own. -/
theorem offers_write (unit : CompilationUnit) (opens : Bool) (ref : PatchRef) :
    (unit.write opens ref).1 =
      (if ref.isFull = true then unit.roots.offers else []) ++ unit.refOffers opens ref := by
  cases ref with
  | full index => rfl
  | readsOnly module index => rfl

theorem unit_write (unit : CompilationUnit) (opens : Bool) (ref : PatchRef) :
    (unit.write opens ref).2 =
      if ref.isFull = true then { unit with roots := unit.roots.afterWriting } else unit := by
  cases ref with
  | full index => rfl
  | readsOnly module index => rfl

/-- The options of a patch by itself are of these four kinds. -/
theorem option_of_mem_refOffers {unit : CompilationUnit} {opens : Bool} {ref : PatchRef}
    {pair : Offer} (present : pair ∈ unit.refOffers opens ref) :
    pair.1 ∈ ["--limit-modules", "--add-reads", "--add-exports", "--add-opens"] := by
  have named : ∀ {option key names}, pair ∈ offer option key names →
      "--" ++ option ∈ ["--limit-modules", "--add-reads", "--add-exports", "--add-opens"] →
      pair.1 ∈ ["--limit-modules", "--add-reads", "--add-exports", "--add-opens"] := by
    intro option key names inside own
    rw [option_of_mem_offer inside]
    exact own
  rw [refOffers_eq] at present
  rcases ModulePatch.mem_offers present with limits | ⟨module, _, own⟩
  · exact named limits (by decide)
  · rcases own with reads | ⟨entry, _, exported⟩ | ⟨entry, _, opened⟩
    · exact named reads (by decide)
    · exact named exported (by decide)
    · exact named opened (by decide)

theorem written_afterWriting (roots : RootModules) : roots.afterWriting.written = true := by
  unfold RootModules.afterWriting
  cases already : roots.written with
  | true => simp only [if_true, already]
  | false => simp only [Bool.false_eq_true, if_false]

/-- Once the modules of the compilation are written, a patch writes its own options and changes
nothing. -/
theorem write_of_written {unit : CompilationUnit} (written : unit.roots.written = true)
    (opens : Bool) (ref : PatchRef) : unit.write opens ref = (unit.refOffers opens ref, unit) := by
  apply Prod.ext
  · rw [offers_write]
    unfold RootModules.offers
    simp only [written, if_true, ite_self, List.nil_append]
  · rw [unit_write]
    unfold RootModules.afterWriting
    simp only [written, if_true, ite_self]

private theorem writeAll_of_written {unit : CompilationUnit} (written : unit.roots.written = true)
    (opens : Bool) (refs : List PatchRef) :
    unit.writeAll opens refs = (refs.flatMap (unit.refOffers opens), unit) := by
  induction refs with
  | nil => rfl
  | cons ref rest ih =>
      unfold writeAll
      simp only [write_of_written written, ih, List.flatMap_cons]

theorem patches_write (unit : CompilationUnit) (opens : Bool) (ref : PatchRef) :
    (unit.write opens ref).2.patches = unit.patches := by
  cases ref with
  | full index => rfl
  | readsOnly module index => rfl

theorem patches_writeAll (unit : CompilationUnit) (opens : Bool) (refs : List PatchRef) :
    (unit.writeAll opens refs).2.patches = unit.patches := by
  induction refs generalizing unit with
  | nil => rfl
  | cons ref rest ih =>
      unfold writeAll
      simp only [ih, patches_write]

/-- If the first patch written is a full one, it carries the option for the modules of the
compilation. -/
theorem writeAll_full_cons (unit : CompilationUnit) (opens : Bool) (index : Nat)
    (rest : List PatchRef) :
    unit.writeAll opens (.full index :: rest) =
      (unit.roots.offers ++ (PatchRef.full index :: rest).flatMap (unit.refOffers opens),
        { unit with roots := unit.roots.afterWriting }) := by
  have later := @writeAll_of_written { unit with roots := unit.roots.afterWriting }
    (written_afterWriting unit.roots) opens rest
  have same := @refOffers_congr { unit with roots := unit.roots.afterWriting } unit rfl opens
  unfold writeAll
  simp only [offers_write, unit_write, PatchRef.isFull, if_true, later, same, List.flatMap_cons,
    List.append_assoc]

end CompilationUnit

end ModulePlan
