/-
Patches of modules without a patch file.

Of the modules without a patch file only the first gets a patch of its own, and the others
read what that one reads.  The options are the same as if each of them had a patch of its own.
-/

import ModulePlan.Proofs.Plan.Members

namespace ModulePlan.Plan

open TestModulePath

variable {answers : List Answer}

/-- Are the modules that the answers add by themselves added already? -/
def HoldsAlone (answers : List Answer) (roots : RootModules) : Prop :=
  ∀ name ∈ (Progress.alone answers).names, name ∈ roots.names

theorem absorb_undeclared (named : Progress.NoneUnnamed answers) {member : Member}
    (undeclared : member.declaration = none) (roots : RootModules) :
    absorb answers roots member.patch =
      ({ roots with names := roots.names.union (Progress.alone answers).names },
        { ModulePatch.create (some member.name) with
          addReads := (Progress.alone answers).reads }) := by
  unfold Member.patch
  rw [undeclared]
  exact absorb_create named roots (some member.name)

private theorem absorb_undeclared_again (named : Progress.NoneUnnamed answers) {member : Member}
    (undeclared : member.declaration = none) {roots : RootModules}
    (holds : HoldsAlone answers roots) :
    (absorb answers roots member.patch).1 = roots := by
  rw [absorb_undeclared named undeclared, DistinctList.union_of_subset holds]

private theorem holdsAlone_absorb {roots : RootModules} (holds : HoldsAlone answers roots)
    (patch : ModulePatch) : HoldsAlone answers (absorb answers roots patch).1 := by
  intro name present
  exact (absorb_roots answers roots patch).2 name (holds name present)

private theorem holdsAlone_absorb_undeclared (named : Progress.NoneUnnamed answers)
    {member : Member} (undeclared : member.declaration = none) (roots : RootModules) :
    HoldsAlone answers (absorb answers roots member.patch).1 := by
  rw [absorb_undeclared named undeclared]
  intro name present
  exact (DistinctList.mem_union _ _ _).mpr (Or.inr present)

/-- The patches that are not made would not change the modules of the compilation. -/
theorem roots_absorbAll_owners (named : Progress.NoneUnnamed answers) {implicit : Bool}
    {roots : RootModules} (holds : implicit = true → HoldsAlone answers roots)
    (members : List Member) :
    (absorbAll answers roots ((owners implicit members).map Member.patch)).1 =
      (absorbAll answers roots (members.map Member.patch)).1 := by
  induction members generalizing roots implicit with
  | nil => rfl
  | cons member rest ih =>
      unfold owners
      cases declared : member.declaration with
      | some declaration =>
          exact ih fun made => holdsAlone_absorb (holds made) member.patch
      | none =>
          cases implicit with
          | false => exact ih fun _ => holdsAlone_absorb_undeclared named declared roots
          | true =>
              have later := ih holds
              have same := absorb_undeclared_again named declared (holds rfl)
              simp only [Option.isNone_none, Bool.and_self, if_true, later, List.map_cons,
                absorbAll, same]

/-- What is written of a patch by its place is what is written of the patch. -/
structure Shows (patches : List ModulePatch) (written : PatchRef × List FilePath → List Offer)
    (shown : ModulePatch → List FilePath → List Offer) : Prop where
  own : ∀ {index patch} roots, patches[index]? = some patch →
    written (.full index, roots) = shown patch roots
  shared : ∀ {name index patch} roots, Text.isBlankText name = false →
    patches[index]? = some patch →
    written (.readsOnly name index, roots) =
      shown { ModulePatch.create (some name) with addReads := patch.addReads } roots
  blank : ∀ reads roots, shown { ModulePatch.create none with addReads := reads } roots = []

private theorem create_of_blank {name : String} (blank : Text.isBlankText name = true) :
    ModulePatch.create (some name) = ModulePatch.create none := by
  unfold ModulePatch.create
  rw [Option.filter_some_neg]
  · rfl
  · rw [blank]
    rfl

/-- A module that shares the reads of a patch is shown as a patch of its own with these reads. -/
private theorem flatMap_refs_shared {patches : List ModulePatch}
    {written : PatchRef × List FilePath → List Offer}
    {shown : ModulePatch → List FilePath → List Offer} (shows : Shows patches written shown)
    {member : Member} (undeclared : member.declaration = none) {index : Nat} {patch : ModulePatch}
    (here : patches[index]? = some patch) (count : Nat) (rest : List Member) :
    (refs count (some index) (member :: rest)).flatMap written =
      shown { ModulePatch.create (some member.name) with addReads := patch.addReads }
          member.roots ++
        (refs count (some index) rest).flatMap written := by
  cases blank : Text.isBlankText member.name with
  | true =>
      have nothing : CompilationUnit.sameReads index (some member.name) = none := by
        unfold CompilationUnit.sameReads
        simp only [blank, if_true]
      have skipped : refs count (some index) (member :: rest) = refs count (some index) rest := by
        simp only [refs, undeclared, nothing]
      rw [skipped, create_of_blank blank, shows.blank, List.nil_append]
  | false =>
      have shared : CompilationUnit.sameReads index (some member.name) =
          some (.readsOnly member.name index) := by
        exact CompilationUnit.sameReads_eq_some.mpr ⟨blank, rfl⟩
      have added : refs count (some index) (member :: rest) =
          (.readsOnly member.name index, member.roots) :: refs count (some index) rest := by
        simp only [refs, undeclared, shared]
      rw [added, List.flatMap_cons, shows.shared member.roots blank here]

/-- The patch whose reads are shared, if there is one, reads what the answers come to by
themselves, and what they add is added. -/
def SharesAlone (answers : List Answer) (roots : RootModules) (earlier : List ModulePatch)
    (implicit : Option Nat) : Prop :=
  ∀ index, implicit = some index → HoldsAlone answers roots ∧
    ∃ patch, earlier[index]? = some patch ∧ patch.addReads = (Progress.alone answers).reads

private theorem sharesAlone_concat {earlier : List ModulePatch} {roots : RootModules}
    {implicit : Option Nat} (made : SharesAlone answers roots earlier implicit)
    (patch : ModulePatch) :
    SharesAlone answers (absorb answers roots patch).1
      (earlier ++ [(absorb answers roots patch).2]) implicit := by
  intro index same
  obtain ⟨holds, other, present, reads⟩ := made index same
  refine ⟨holdsAlone_absorb holds patch, other, ?_, reads⟩
  obtain ⟨inside, _⟩ := List.getElem?_eq_some_iff.mp present
  rw [List.getElem?_append_left inside]
  exact present

/-- What is written of the patches is what would be written of a patch for each module. -/
theorem flatMap_refs (named : Progress.NoneUnnamed answers) {patches : List ModulePatch}
    {written : PatchRef × List FilePath → List Offer}
    {shown : ModulePatch → List FilePath → List Offer} (shows : Shows patches written shown)
    {members : List Member} {earlier : List ModulePatch} {roots : RootModules}
    {implicit : Option Nat}
    (split : patches = earlier ++
      (absorbAll answers roots ((owners implicit.isSome members).map Member.patch)).2)
    (made : SharesAlone answers roots earlier implicit) :
    (refs earlier.length implicit members).flatMap written =
      ((absorbAll answers roots (members.map Member.patch)).2.zip members).flatMap
        fun (patch, member) => shown patch member.roots := by
  induction members generalizing earlier roots implicit with
  | nil => rfl
  | cons member rest ih =>
      let absorbed := absorb answers roots member.patch
      have unfolded : ((absorbAll answers roots ((member :: rest).map Member.patch)).2.zip
          (member :: rest)).flatMap (fun (patch, member) => shown patch member.roots) =
          shown absorbed.2 member.roots ++
            ((absorbAll answers absorbed.1 (rest.map Member.patch)).2.zip rest).flatMap
              fun (patch, member) => shown patch member.roots := rfl
      rw [unfolded]
      -- A module with a patch of its own, which is the next one made.
      have own : ∀ next : Option Nat,
          patches = earlier ++ absorbed.2 ::
            (absorbAll answers absorbed.1 ((owners next.isSome rest).map Member.patch)).2 →
          SharesAlone answers absorbed.1 (earlier ++ [absorbed.2]) next →
          written (.full earlier.length, member.roots) ++
              (refs (earlier.length + 1) next rest).flatMap written =
            shown absorbed.2 member.roots ++
              ((absorbAll answers absorbed.1 (rest.map Member.patch)).2.zip rest).flatMap
                fun (patch, member) => shown patch member.roots := by
        intro next split made
        have here : patches[earlier.length]? = some absorbed.2 := by
          rw [split, List.getElem?_append_right (Nat.le_refl _), Nat.sub_self]
          rfl
        have nextSplit : patches = (earlier ++ [absorbed.2]) ++
            (absorbAll answers absorbed.1
              ((owners next.isSome rest).map Member.patch)).2 := by
          rw [split, List.append_assoc]
          rfl
        have later := ih nextSplit made
        rw [List.length_append, List.length_singleton] at later
        rw [shows.own member.roots here, later]
      cases declared : member.declaration with
      | some declaration =>
          unfold owners at split
          simp only [declared, Option.isNone_some, Bool.false_and, Bool.false_eq_true, if_false,
            Bool.false_or, List.map_cons, absorbAll] at split
          unfold refs
          simp only [declared, List.flatMap_cons]
          exact own implicit split (sharesAlone_concat made member.patch)
      | none =>
          have fresh := absorb_undeclared named declared roots
          cases implicit with
          | none =>
              unfold owners at split
              simp only [declared, Option.isNone_none, Option.isSome_none, Bool.and_false,
                Bool.false_eq_true, if_false, Bool.true_or, List.map_cons, absorbAll] at split
              unfold refs
              simp only [declared, List.flatMap_cons]
              apply own (some earlier.length) split
              intro index same
              cases same
              refine ⟨holdsAlone_absorb_undeclared named declared roots, absorbed.2, ?_, ?_⟩
              · rw [List.getElem?_append_right (Nat.le_refl _), Nat.sub_self]
                rfl
              · exact congrArg (fun result => result.2.addReads) fresh
          | some index =>
              obtain ⟨holds, patch, present, reads⟩ := made index rfl
              have unchanged : absorbed.1 = roots :=
                absorb_undeclared_again named declared holds
              have taken : absorbed.2 = { ModulePatch.create (some member.name) with
                  addReads := patch.addReads } := by
                rw [reads]
                exact congrArg Prod.snd fresh
              unfold owners at split
              simp only [declared, Option.isNone_none, Option.isSome_some, Bool.and_self,
                if_true] at split
              have later := ih split made
              obtain ⟨inside, _⟩ := List.getElem?_eq_some_iff.mp present
              have here : patches[index]? = some patch := by
                rw [split, List.getElem?_append_left inside]
                exact present
              rw [unchanged, ← later, taken]
              exact flatMap_refs_shared shows declared here earlier.length rest

end ModulePlan.Plan
