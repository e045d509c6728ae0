/-
What the options of a plan are about.

The module of a patch comes from its patch file, and each patch file limits the modules by
itself.  So two patches of one plan can have options about the same thing; this is so exactly
if they contradict each other.
-/

import Mathlib.Data.List.Perm.Basic
import ModulePlan.Proofs.ModulePatch
import ModulePlan.Proofs.Plan.RootModules

namespace ModulePlan

namespace Plan

open TestModulePath

variable {host : Host} {directories : List SourceDirectory} {view : Option DependencyView}
  {settings : PlanSettings} {plan : Plan} {members : List Member}

/-! ### Sound patches -/

theorem Parts.isSound (parts : Parts host directories view settings plan members)
    {entry : PatchRef × List FilePath} (present : entry ∈ refs 0 none members) :
    ((takenUnit host view settings members).asWritten entry.1).IsSound := by
  apply forall_asWritten _ _ (ModulePatch.isSound_create none) _ present
  · intro member among
    unfold Member.patch
    cases declared : member.declaration with
    | none => exact ModulePatch.isSound_create _
    | some declaration =>
        have proper := parts.isProper among declared
        exact (ModulePatch.isWellNamed_apply (ModulePatch.holdsNames_create _) proper).isSound
  · exact fun _ _ sound => ⟨sound.named, sound.limits, sound.qualified⟩
  · intro member _ visible patch _
    exact {
      named := by
        intro module named
        cases named
        exact visible
      limits := by
        intro name absent
        cases absent
      qualified := by
        intro package absent
        rcases absent with absent | absent
        · cases absent
        · cases absent }

/-! ### Keys -/

private theorem keys_patchModuleOffer {patch : ModulePatch} (sound : patch.IsSound)
    (roots : List FilePath) :
    (kept (patchModuleOffer patch.module roots)).map optionKey =
      ModulePatch.rootsKeys true patch.module := by
  unfold patchModuleOffer ModulePatch.rootsKeys
  cases named : patch.module with
  | none => rfl
  | some name =>
      have some : name ≠ "" := by
        intro empty
        rcases empty with rfl
        exact absurd (sound.named "" named) (by decide)
      simp only [if_neg some, if_true]
      rw [kept_of_visible (visible_keyed name _), List.map_singleton]
      unfold optionKey
      rw [beforeEquals_keyed]
      rfl

/-- Behind the modules of the compilation, the options of a plan are about what its patches are
about. -/
theorem keys_laterPairs (parts : Parts host directories view settings plan members) :
    let unit := takenUnit host view settings members
    ((laterPairs settings members unit).map optionKey).Perm
      ((refs 0 none members).flatMap fun (ref, _) =>
        (unit.asWritten ref).keys settings.test) := by
  intro unit
  have own : ∀ entry ∈ refs 0 none members,
      (unit.asWritten entry.1).keys settings.test =
        (kept (unit.refOffers settings.test entry.1)).map optionKey ++
          ModulePatch.rootsKeys settings.test (unit.module entry.1) := by
    intro entry present
    rw [← ModulePatch.keys_offers (parts.isSound present), CompilationUnit.refOffers_eq,
      CompilationUnit.module_asWritten]
  have roots : (if settings.test then
        kept ((refs 0 none members).flatMap fun (ref, roots) =>
          patchModuleOffer (unit.module ref) roots)
      else []).map optionKey =
      (refs 0 none members).flatMap fun entry =>
        ModulePatch.rootsKeys settings.test (unit.module entry.1) := by
    cases settings.test with
    | false =>
        have nothing : ∀ module, ModulePatch.rootsKeys false module = [] := by
          intro module
          cases module with
          | none => rfl
          | some name => rfl
        simp [nothing]
    | true =>
        rw [if_pos rfl, keys_kept_flatMap]
        apply List.flatMap_congr
        intro entry present
        have patched := keys_patchModuleOffer (parts.isSound present) entry.2
        rw [CompilationUnit.module_asWritten] at patched
        exact patched
  unfold laterPairs
  rw [List.map_append, keys_kept_flatMap, roots, List.flatMap_congr own]
  exact List.flatMap_append_perm _ _ _

private theorem nodup_keys_rootOffers (roots : RootModules) :
    ((kept roots.offers).map optionKey).Nodup := by
  have single : (roots.offers.map optionKey).Nodup := by
    unfold RootModules.offers offer
    split
    · exact List.nodup_nil
    · split
      · exact List.nodup_nil
      · exact List.nodup_singleton _
  exact single.sublist (List.filter_sublist.map optionKey)

private theorem option_of_mem_rootOffers {roots : RootModules} {pair : Offer}
    (present : pair ∈ kept roots.offers) : pair.1 = "--add-modules" :=
  option_of_mem_offer (RootModules.mem_offers (mem_kept.mp present).1)

/-- The options of a plan contradict each other exactly if two of its patches do. -/
theorem nodup_keys_iff (made : (make host directories view settings).result = .ok plan) :
    (plan.options.pairs.map optionKey).Nodup ↔
      plan.patches.Pairwise fun left right =>
        ¬ModulePatch.Contradicts settings.test (plan.unit.asWritten left)
          (plan.unit.asWritten right) := by
  obtain ⟨members, parts⟩ := parts_of_make made
  let unit := takenUnit host view settings members
  have patches : plan.unit.asWritten = unit.asWritten := by
    apply CompilationUnit.asWritten_congr
    rw [parts.unit]
    exact CompilationUnit.patches_writeAll _ _ _
  have apart : ((kept unit.roots.offers).map optionKey).Disjoint
      ((laterPairs settings members unit).map optionKey) := by
    intro key present among
    obtain ⟨pair, offered, rfl⟩ := List.mem_map.mp present
    obtain ⟨other, later, same⟩ := List.mem_map.mp among
    have option : other.1 = pair.1 := (Prod.mk.inj same).1
    exact option_of_mem_laterPairs later (option.trans (option_of_mem_rootOffers offered))
  -- The first option is about the whole compilation.  The others are grouped by patch, and a
  -- patch by itself never repeats a key.
  rw [parts.pairs, List.map_append, List.nodup_append', and_iff_right (nodup_keys_rootOffers _),
    and_iff_left apart, (keys_laterPairs parts).nodup_iff, List.nodup_flatMap,
    and_iff_right, patches, parts.patches, List.pairwise_map]
  · apply List.Pairwise.iff_of_mem
    intro left right present among
    exact ModulePatch.disjoint_keys_iff (parts.isSound present) (parts.isSound among)
  · intro entry present
    exact ModulePatch.nodup_keys (parts.isSound present) settings.test

/-- Two modules with a patch file each. -/
def patchedHost (first second : String) : Host where
  files := ⟨.ofList [(["a", Patch.conventionalFile], .file (.bytes first.toUTF8.toList)),
    (["b", Patch.conventionalFile], .file (.bytes second.toUTF8.toList))]⟩

def patchedDirectories : List SourceDirectory :=
  [.create ⟨.relative, ["a"]⟩ ⟨.relative, ["out"]⟩ (some "a") none .source,
    .create ⟨.relative, ["b"]⟩ ⟨.relative, ["out"]⟩ (some "b") none .source]

def patchedPlan (first second : String) (test : Bool) : Except Fault Plan :=
  (make (patchedHost first second) patchedDirectories none { test := test }).result

private theorem exists_plan {first second : String} {test : Bool} {pairs : List Offer}
    (options : (patchedPlan first second test).toOption.map (·.options.pairs) = some pairs) :
    ∃ plan, patchedPlan first second test = .ok plan ∧ plan.options.pairs = pairs :=
  exists_ok_of_toOption options

/-- Patch files that change different things do not contradict each other. -/
theorem nodup_keys_iff_patched : ∃ plan,
    patchedPlan "patch-module a \x7b add-reads c; \x7d"
      "patch-module b \x7b limit-modules c; \x7d" true = .ok plan ∧
    (plan.options.pairs.map optionKey).Nodup ∧
    plan.patches.Pairwise fun left right =>
      ¬ModulePatch.Contradicts true (plan.unit.asWritten left) (plan.unit.asWritten right) := by
  have options : (patchedPlan "patch-module a \x7b add-reads c; \x7d"
      "patch-module b \x7b limit-modules c; \x7d" true).toOption.map (·.options.pairs) =
      some [("--add-reads", "a=c"), ("--limit-modules", "c"), ("--patch-module", "a=a"),
        ("--patch-module", "b=b")] := by
    decide +kernel
  obtain ⟨plan, made, pairs⟩ := exists_plan options
  have distinct : (plan.options.pairs.map optionKey).Nodup := by
    rw [pairs]
    decide
  exact ⟨plan, made, distinct, (nodup_keys_iff made).mp distinct⟩

/-- Two patch files that limit the modules, or that declare the same module, make options that
contradict each other. -/
theorem options_contradict :
    (∃ plan, patchedPlan "patch-module a \x7b limit-modules java.base; \x7d"
        "patch-module b \x7b limit-modules java.sql; \x7d" false = .ok plan ∧
      ¬(plan.options.pairs.map optionKey).Nodup) ∧
    ∃ plan, patchedPlan "patch-module c \x7b add-reads d; \x7d"
        "patch-module c \x7b add-reads e; \x7d" true = .ok plan ∧
      ¬(plan.options.pairs.map optionKey).Nodup := by
  have limits : (patchedPlan "patch-module a \x7b limit-modules java.base; \x7d"
      "patch-module b \x7b limit-modules java.sql; \x7d" false).toOption.map
        (·.options.pairs) =
      some [("--limit-modules", "java.base"), ("--limit-modules", "java.sql")] := by
    decide +kernel
  have modules : (patchedPlan "patch-module c \x7b add-reads d; \x7d"
      "patch-module c \x7b add-reads e; \x7d" true).toOption.map (·.options.pairs) =
      some [("--add-reads", "c=d"), ("--add-reads", "c=e"), ("--patch-module", "c=a"),
        ("--patch-module", "c=b")] := by
    decide +kernel
  obtain ⟨plan, made, pairs⟩ := exists_plan limits
  obtain ⟨other, otherMade, otherPairs⟩ := exists_plan modules
  refine ⟨⟨plan, made, ?_⟩, other, otherMade, ?_⟩
  · rw [pairs]
    decide
  · rw [otherPairs]
    decide

end Plan

end ModulePlan
