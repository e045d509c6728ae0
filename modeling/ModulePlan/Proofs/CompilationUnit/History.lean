/-
What is written over a history of a compilation.

Patches are made, loaded, expanded and written into lists of options, in any order and as often
as is wanted.  A ledger keeps the modules that loads and passes add.  The modules of the
compilation are what the ledger holds, until a full patch is written; from then on they are
never written again, whatever is added.
-/

import ModulePlan.Proofs.CompilationUnit
import ModulePlan.Proofs.KeyedList
import ModulePlan.Proofs.Patch.ProperNames
import ModulePlan.Proofs.TestModulePath.Additions

namespace ModulePlan

/-- The patches of a compilation, in the order of their making, and the lists that their options
are written into. -/
structure Workbench where
  unit : CompilationUnit := {}
  refs : List PatchRef := []
  lists : KeyedList String CompilerOptions := .empty

/-- What is done with the patches of a compilation.  A patch is told by its place among those
that were made. -/
inductive Operation where
  | create (module : Option String)
  | load (place : Nat) (text : String)
  | expand (place : Nat) (inspection : Inspection) (view : Option DependencyView)
      (runtime : Bool)
  | shareReads (place : Nat) (module : Option String)
  | write (place : Nat) (opens : Bool) (list : String)

namespace Workbench

def full? (bench : Workbench) (place : Nat) : Option Nat :=
  match bench.refs[place]? with
  | some (.full index) => some index
  | _ => none

def options (bench : Workbench) (list : String) : List Offer :=
  ((bench.lists.get? list).getD {}).pairs

def writeInto (bench : Workbench) (opens : Bool) (list : String) (ref : PatchRef) : Workbench :=
  let (offers, unit) := bench.unit.write opens ref
  { bench with
    unit := unit
    lists := bench.lists.alter list fun options => (options.getD {}).addAll offers }

/-- An operation on a patch that is not there, or that cannot be done with it, does nothing. -/
def perform (bench : Workbench) : Operation → Workbench
  | .create module =>
    let (ref, unit) := bench.unit.create module
    { bench with unit := unit, refs := bench.refs ++ [ref] }
  | .load place text =>
    match bench.full? place with
    | none => bench
    | some index =>
      match bench.unit.load index text with
      | .error _ => bench
      | .ok unit => { bench with unit := unit }
  | .expand place inspection view runtime =>
    match bench.full? place, view with
    | some index, some view =>
      { bench with unit := (bench.unit.expand inspection view runtime index).unit }
    | _, _ => bench
  | .shareReads place module =>
    match bench.full? place with
    | none => bench
    | some index =>
      { bench with refs := bench.refs ++ (CompilationUnit.sameReads index module).toList }
  | .write place opens list =>
    match bench.refs[place]? with
    | none => bench
    | some ref => bench.writeInto opens list ref

def run (bench : Workbench) (operations : List Operation) : Workbench :=
  operations.foldl perform bench

/-! ### The ledger -/

/-- The modules that an operation adds to the compilation: those that a patch file lists, and
those that a pass comes to. -/
def addition (bench : Workbench) : Operation → List String
  | .load place text =>
    match bench.full? place, Patch.Declaration.ofText text with
    | some _, .ok declaration => Patch.firstNames (declaration.names .addModules)
    | _, _ => []
  | .expand place inspection view runtime =>
    match bench.full? place, view with
    | some index, some view =>
      TestModulePath.additions (TestModulePath.testAnswers inspection view runtime)
        bench.unit.roots (bench.unit.patch index)
    | _, _ => []
  | _ => []

def additions (bench : Workbench) : List Operation → List String
  | [] => []
  | operation :: rest =>
    bench.addition operation ++ (bench.perform operation).additions rest

def writesFull (bench : Workbench) : Operation → Bool
  | .write place _ _ => (bench.full? place).isSome
  | _ => false

/-- Was a full patch written? -/
def hasWritten (bench : Workbench) : List Operation → Bool
  | [] => false
  | operation :: rest =>
    bench.writesFull operation || (bench.perform operation).hasWritten rest

/-- What an operation puts behind the options of the list that it writes into. -/
def emission (bench : Workbench) : Operation → List Offer
  | .write place opens list =>
    ((bench.perform (.write place opens list)).options list).drop (bench.options list).length
  | _ => []

def emissions (bench : Workbench) : List Operation → List Offer
  | [] => []
  | operation :: rest =>
    bench.emission operation ++ (bench.perform operation).emissions rest

end Workbench

/-- The names of the modules that a pass asks about are not blank. -/
def Operation.HasVisibleNames : Operation → Prop
  | .expand _ inspection (some view) runtime =>
    ∀ module, view.IsTestArtifact inspection runtime (some module) →
      Text.isBlankText module.name = false
  | _ => True

namespace Workbench

variable {bench : Workbench} {operation : Operation}

/-! ### One operation -/

private theorem roots_apply {text : String} {declaration : Patch.Declaration}
    (parsed : Patch.Declaration.ofText text = .ok declaration) (unit : CompilationUnit)
    (index : Nat) :
    (unit.apply index declaration).roots =
      { unit.roots with
        names := (Patch.firstNames (declaration.names .addModules)).foldl .insert
          unit.roots.names } := by
  have proper := (Patch.Declaration.ofText_eq_ok.mp parsed).2.1
  rw [← (Patch.Overrides.follow_of_proper proper).addModules]
  rfl

/-- An operation adds what the ledger says, and only writing a full patch does anything else to
the modules of the compilation. -/
theorem roots_perform (bench : Workbench) (operation : Operation) :
    (bench.perform operation).unit.roots =
      if bench.writesFull operation = true then bench.unit.roots.afterWriting
      else
        { bench.unit.roots with
          names := (bench.addition operation).foldl .insert bench.unit.roots.names } := by
  cases operation with
  | create module => rfl
  | load place text =>
      simp only [perform, addition, writesFull, Bool.false_eq_true, if_false]
      cases bench.full? place with
      | none => rfl
      | some index =>
          simp only [CompilationUnit.load_eq]
          cases parsed : Patch.Declaration.ofText text with
          | error fault => rfl
          | ok declaration => exact roots_apply parsed bench.unit index
  | expand place inspection view runtime =>
      simp only [perform, addition, writesFull, Bool.false_eq_true, if_false]
      cases bench.full? place with
      | none => rfl
      | some index =>
          cases view with
          | none => rfl
          | some view =>
              exact TestModulePath.roots_expand_eq_additions inspection view runtime
                bench.unit.roots (bench.unit.patch index)
  | shareReads place module =>
      simp only [perform, writesFull, Bool.false_eq_true, if_false]
      cases bench.full? place with
      | none => rfl
      | some index => rfl
  | write place opens list =>
      cases made : bench.refs[place]? with
      | none => simp [perform, addition, writesFull, full?, made]
      | some ref =>
          cases ref with
          | full index =>
              simp [perform, writesFull, full?, made, writeInto, CompilationUnit.write]
          | readsOnly module index =>
              simp [perform, addition, writesFull, full?, made, writeInto, CompilationUnit.write]

/-- What comes into the ledger is not blank. -/
theorem visible_addition (visible : operation.HasVisibleNames) {name : String}
    (present : name ∈ bench.addition operation) : Text.isBlankText name = false := by
  cases operation with
  | load place text =>
      simp only [addition] at present
      split at present
      · rename_i index declaration full parsed
        have proper := (Patch.Declaration.ofText_eq_ok.mp parsed).2.1
        exact (Patch.isListable_of_added proper present).visible
      · cases present
  | expand place inspection view runtime =>
      simp only [addition] at present
      split at present
      · obtain ⟨module, artifact, rfl⟩ := TestModulePath.artifact_of_mem_additions present
        exact visible module artifact
      · cases present
  | create module => cases present
  | shareReads place module => cases present
  | write place opens list => cases present

/-! ### The modules of the compilation -/

/-- The modules of the compilation are those in the ledger until they are written. -/
structure Accounts (bench : Workbench) (added : List String) (written : Bool) : Prop where
  flag : bench.unit.roots.written = written
  names : written = false → bench.unit.roots.names = .ofList added
  visible : ∀ name ∈ added, Text.isBlankText name = false

theorem accounts_start (lists : KeyedList String CompilerOptions) :
    Accounts { lists := lists } [] false :=
  ⟨rfl, fun _ => rfl, List.forall_mem_nil _⟩

theorem accounts_perform {added : List String} {written : Bool}
    (accounts : bench.Accounts added written) (visible : operation.HasVisibleNames) :
    (bench.perform operation).Accounts (added ++ bench.addition operation)
      (written || bench.writesFull operation) := by
  have shown : ∀ name ∈ added ++ bench.addition operation, Text.isBlankText name = false := by
    intro name present
    rcases List.mem_append.mp present with earlier | here
    · exact accounts.visible name earlier
    · exact visible_addition visible here
  have roots := bench.roots_perform operation
  cases writes : bench.writesFull operation with
  | true =>
      rw [writes, if_pos rfl] at roots
      refine ⟨?_, ?_, shown⟩
      · rw [roots, CompilationUnit.written_afterWriting, Bool.or_true]
      · intro impossible
        rw [Bool.or_true] at impossible
        cases impossible
  | false =>
      rw [writes, if_neg Bool.false_ne_true] at roots
      rw [Bool.or_false]
      refine ⟨?_, ?_, shown⟩
      · rw [roots]
        exact accounts.flag
      · intro unwritten
        rw [roots, DistinctList.ofList_append, accounts.names unwritten]

theorem accounts_run {added : List String} {written : Bool}
    (accounts : bench.Accounts added written) {operations : List Operation}
    (visible : ∀ operation ∈ operations, operation.HasVisibleNames) :
    (bench.run operations).Accounts (added ++ bench.additions operations)
      (written || bench.hasWritten operations) := by
  induction operations generalizing bench added written with
  | nil =>
      rw [additions, hasWritten, List.append_nil, Bool.or_false]
      exact accounts
  | cons operation rest ih =>
      obtain ⟨here, later⟩ := List.forall_mem_cons.mp visible
      have step := ih (accounts_perform accounts here) later
      rw [List.append_assoc, Bool.or_assoc] at step
      exact step

/-! ### Writing -/

theorem options_writeInto (bench : Workbench) (opens : Bool) (list : String) (ref : PatchRef)
    (other : String) :
    (bench.writeInto opens list ref).options other =
      bench.options other ++
        if other = list then kept (bench.unit.write opens ref).1 else [] := by
  unfold options writeInto
  simp only [KeyedList.get?_alter]
  by_cases same : other = list
  · rw [if_pos same, if_pos same, Option.getD_some, CompilerOptions.pairs_addAll, same]
  · rw [if_neg same, if_neg same, List.append_nil]

/-- The modules of the compilation come first with a full patch that is written before any
other, and nothing else that is written is an option for them. -/
theorem kept_write {added : List String} {written : Bool}
    (accounts : bench.Accounts added written) (opens : Bool) (ref : PatchRef) :
    kept (bench.unit.write opens ref).1 =
      (if ref.isFull = true ∧ written = false then rootOption added.eraseDups else []) ++
        kept (bench.unit.refOffers opens ref) := by
  rw [CompilationUnit.offers_write, kept_append]
  congr 1
  cases full : ref.isFull with
  | false => simp [kept]
  | true =>
      unfold RootModules.offers
      rw [accounts.flag]
      cases unwritten : written with
      | true => simp [kept]
      | false =>
          have names := accounts.names unwritten
          have shown : ∀ name ∈ bench.unit.roots.names, Text.isBlankText name = false := by
            intro name present
            rw [names, DistinctList.mem_ofList] at present
            exact accounts.visible name present
          have option := kept_offer_roots shown
          rw [names, DistinctList.toList_ofList, ← names] at option
          simpa using option

theorem option_of_mem_kept_refOffers {unit : CompilationUnit} {opens : Bool} {ref : PatchRef}
    {pair : Offer} (present : pair ∈ kept (unit.refOffers opens ref)) :
    pair.1 ≠ "--add-modules" :=
  ne_of_mem_of_not_mem (CompilationUnit.option_of_mem_refOffers (mem_kept.mp present).1)
    (by decide)

/-- Some pairs are put behind the options of a list, and the other lists and the patches stay as
they are. -/
structure Appends (before after : Workbench) (list : String) (pairs : List Offer) : Prop where
  options : after.options list = before.options list ++ pairs
  others : ∀ other, other ≠ list → after.options other = before.options other
  refs : after.refs = before.refs
  patches : after.unit.patches = before.unit.patches

theorem perform_write {place : Nat} {ref : PatchRef} (made : bench.refs[place]? = some ref)
    (opens : Bool) (list : String) :
    bench.perform (.write place opens list) = bench.writeInto opens list ref := by
  simp only [perform, made]

theorem appends_writeInto (bench : Workbench) (opens : Bool) (list : String) (ref : PatchRef) :
    bench.Appends (bench.writeInto opens list ref) list (kept (bench.unit.write opens ref).1) where
  options := by
    rw [options_writeInto, if_pos rfl]
  others := by
    intro other different
    rw [options_writeInto, if_neg different, List.append_nil]
  refs := rfl
  patches := CompilationUnit.patches_write bench.unit opens ref

theorem writesFull_write {place : Nat} {ref : PatchRef} (made : bench.refs[place]? = some ref)
    (opens : Bool) (list : String) : bench.writesFull (.write place opens list) = ref.isFull := by
  cases ref with
  | full index => simp [writesFull, full?, made, PatchRef.isFull]
  | readsOnly module index => simp [writesFull, full?, made, PatchRef.isFull]

theorem emission_write {place : Nat} {ref : PatchRef} (made : bench.refs[place]? = some ref)
    (opens : Bool) (list : String) :
    bench.emission (.write place opens list) = kept (bench.unit.write opens ref).1 := by
  unfold emission
  simp only [perform_write made, (bench.appends_writeInto opens list ref).options,
    List.drop_left]

/-! ### One option for the compilation -/

def rootOptionCount (offers : List Offer) : Nat :=
  offers.countP (·.1 = "--add-modules")

private theorem rootOptionCount_append (first second : List Offer) :
    rootOptionCount (first ++ second) = rootOptionCount first + rootOptionCount second :=
  List.countP_append

private theorem rootOptionCount_rootOption_le (names : List String) :
    rootOptionCount (rootOption names) ≤ 1 := by
  unfold rootOption
  split
  · exact Nat.zero_le 1
  · exact Nat.le_refl 1

private theorem rootOptionCount_eq_zero {offers : List Offer}
    (other : ∀ pair ∈ offers, pair.1 ≠ "--add-modules") : rootOptionCount offers = 0 := by
  unfold rootOptionCount
  rw [List.countP_eq_zero]
  intro pair present
  simpa using other pair present

/-- How often the option may still be written. -/
def remaining (written : Bool) : Nat :=
  if written then 0 else 1

/-- Only a full patch that is written before any other carries the option. -/
theorem rootOptionCount_emission_le {added : List String} {written : Bool}
    (accounts : bench.Accounts added written) (operation : Operation) :
    rootOptionCount (bench.emission operation) +
      remaining (written || bench.writesFull operation) ≤ remaining written := by
  have idle : bench.emission operation = [] → bench.writesFull operation = false →
      rootOptionCount (bench.emission operation) +
        remaining (written || bench.writesFull operation) ≤ remaining written := by
    intro nothing other
    rw [nothing, other, Bool.or_false]
    exact Nat.le_of_eq (Nat.zero_add _)
  cases operation with
  | write place opens list =>
      cases made : bench.refs[place]? with
      | none =>
          apply idle
          · simp [emission, perform, made]
          · simp [writesFull, full?, made]
      | some ref =>
          have own : rootOptionCount (kept (bench.unit.refOffers opens ref)) = 0 :=
            rootOptionCount_eq_zero fun pair present => option_of_mem_kept_refOffers present
          rw [emission_write made, kept_write accounts, rootOptionCount_append, own,
            writesFull_write made, Nat.add_zero]
          by_cases first : ref.isFull = true ∧ written = false
          · rw [if_pos first, first.1, first.2]
            exact rootOptionCount_rootOption_le _
          · rw [if_neg first]
            cases written with
            | true => exact Nat.le_refl 0
            | false =>
                rw [Bool.eq_false_iff.mpr fun full => first ⟨full, rfl⟩]
                exact Nat.le_refl 1
  | create module => exact idle rfl rfl
  | load place text => exact idle rfl rfl
  | expand place inspection view runtime => exact idle rfl rfl
  | shareReads place module => exact idle rfl rfl

theorem rootOptionCount_emissions_le {added : List String} {written : Bool}
    (accounts : bench.Accounts added written) {operations : List Operation}
    (visible : ∀ operation ∈ operations, operation.HasVisibleNames) :
    rootOptionCount (bench.emissions operations) ≤ remaining written := by
  -- Each operation lowers what remains by what it writes, so that the sum stays below.
  induction operations generalizing bench added written with
  | nil => exact Nat.zero_le _
  | cons operation rest ih =>
      obtain ⟨here, later⟩ := List.forall_mem_cons.mp visible
      have first := rootOptionCount_emission_le accounts operation
      have others := ih (accounts_perform accounts here) later
      rw [emissions, rootOptionCount_append]
      omega

/-- A write that does not carry the option for the modules of the compilation changes no patch
and no module. -/
private theorem unit_writeInto {added : List String} {written : Bool}
    (accounts : bench.Accounts added written) (opens : Bool) (list : String) {ref : PatchRef}
    (idle : ¬(ref.isFull = true ∧ written = false)) :
    (bench.writeInto opens list ref).unit = bench.unit := by
  change (bench.unit.write opens ref).2 = bench.unit
  rw [CompilationUnit.unit_write]
  cases full : ref.isFull with
  | false => rfl
  | true =>
      have settled : bench.unit.roots.written = true := by
        rw [accounts.flag]
        cases written with
        | true => rfl
        | false => exact absurd ⟨full, rfl⟩ idle
      simp [RootModules.afterWriting, settled]

/-- A full patch that was just written has only its own options left. -/
private theorem write_again (bench : Workbench) (opens : Bool) (list again : String) {index : Nat} :
    let written := bench.writeInto opens list (.full index)
    written.Appends (written.writeInto opens again (.full index)) again
        (kept (bench.unit.refOffers opens (.full index))) ∧
      (written.writeInto opens again (.full index)).unit = written.unit := by
  intro written
  have settled : written.unit.roots.written = true :=
    CompilationUnit.written_afterWriting bench.unit.roots
  have appends := written.appends_writeInto opens again (.full index)
  have accounts : written.Accounts [] true := by
    refine ⟨settled, ?_, List.forall_mem_nil _⟩
    intro impossible
    cases impossible
  have patches : written.unit.refOffers opens (.full index) =
      bench.unit.refOffers opens (.full index) := rfl
  rw [kept_write accounts, patches] at appends
  refine ⟨by simpa using appends, unit_writeInto accounts opens again ?_⟩
  intro impossible
  cases impossible.2

/-- Over any history, the option for the modules of the compilation is written at most once.  The
first full patch that is written carries it in front, for what was in the ledger by then; no
other write does.  Writing changes nothing but the list that is written into and, the first
time, the modules of the compilation; and a full patch that is written again has the same
options without that one. -/
theorem root_modules_written_once (lists : KeyedList String CompilerOptions)
    {operations : List Operation}
    (visible : ∀ operation ∈ operations, operation.HasVisibleNames) :
    let start : Workbench := { lists := lists }
    let bench := start.run operations
    rootOptionCount (start.emissions operations) ≤ 1 ∧
    ∀ place opens list ref, bench.refs[place]? = some ref →
      let written := bench.perform (.write place opens list)
      let isFirst := ref.isFull = true ∧ start.hasWritten operations = false
      ∃ own, (∀ pair ∈ own, pair.1 ≠ "--add-modules") ∧
        (isFirst → bench.Appends written list
          (rootOption (start.additions operations).eraseDups ++ own)) ∧
        (¬isFirst → bench.Appends written list own ∧ written.unit = bench.unit) ∧
        (ref.isFull = true → ∀ again,
          let rewritten := written.perform (.write place opens again)
          written.Appends rewritten again own ∧ rewritten.unit = written.unit) := by
  intro start bench
  have accounts : bench.Accounts (start.additions operations) (start.hasWritten operations) :=
    accounts_run (accounts_start lists) visible
  refine ⟨rootOptionCount_emissions_le (accounts_start lists) visible, ?_⟩
  intro place opens list ref made written isFirst
  have writes : written = bench.writeInto opens list ref := perform_write made opens list
  have appends := bench.appends_writeInto opens list ref
  rw [← writes, kept_write accounts] at appends
  refine ⟨kept (bench.unit.refOffers opens ref),
    fun pair present => option_of_mem_kept_refOffers present, ?_, ?_, ?_⟩
  · intro first
    rw [if_pos first] at appends
    exact appends
  · intro other
    rw [if_neg other, List.nil_append] at appends
    rw [writes] at appends ⊢
    exact ⟨appends, unit_writeInto accounts opens list other⟩
  · intro full again rewritten
    have madeAgain : written.refs[place]? = some ref := by
      rw [appends.refs]
      exact made
    have writesAgain : rewritten = written.writeInto opens again ref :=
      perform_write madeAgain opens again
    rw [writesAgain, writes]
    cases ref with
    | full index => exact write_again bench opens list again
    | readsOnly module index => cases full

def sharedView : DependencyView :=
  DependencyView.add {} ⟨"dep", .test⟩ ⟨.relative, ["dep.jar"]⟩ (some { name := "dep" }) false

/-- A patch that takes in the test dependencies, and a second one that is written before it but
only reads the same. -/
def sharedReads : List Operation :=
  [.create (some "app"), .expand 0 TestModulePath.noInspection (some sharedView) false,
    .shareReads 0 (some "lib"), .write 1 false "options"]

theorem root_modules_written_once_shared :
    let start : Workbench := {}
    (∀ operation ∈ sharedReads, operation.HasVisibleNames) ∧
      rootOptionCount (start.emissions sharedReads) ≤ 1 ∧
      ∃ own, (∀ pair ∈ own, pair.1 ≠ "--add-modules") ∧
        ((start.run sharedReads).perform (.write 0 false "options")).options "options" =
          ("--add-reads", "lib=dep") :: ("--add-modules", "dep") :: own := by
  intro start
  have visible : ∀ operation ∈ sharedReads, operation.HasVisibleNames := by
    intro operation present
    simp only [sharedReads, List.mem_cons, List.not_mem_nil, or_false] at present
    rcases present with rfl | rfl | rfl | rfl
    · trivial
    · intro module artifact
      obtain ⟨entry, among, described⟩ := artifact
      obtain rfl := List.mem_singleton.mp among
      cases described
      decide
    · trivial
    · trivial
  have holds := root_modules_written_once .empty visible
  obtain ⟨own, other, first, _, _⟩ := holds.2 0 false "options" (.full 0) rfl
  exact ⟨visible, holds.1, own, other, (first ⟨rfl, rfl⟩).options⟩

end Workbench

end ModulePlan
