/-
What the options of a patch are about.

Names that are read from a patch file are valid, so that no separator is in them.  Each option
of a patch is then about something else, and two patches have an option about the same thing
only if both limit the modules or both are about one module.
-/

import Mathlib.Data.List.Nodup
import ModulePlan.Proofs.CompilationUnit.Names
import ModulePlan.Proofs.CompilerOptions

namespace ModulePlan.ModulePatch

/-! ### Names -/

/-- The names in a patch can be told from the options that they are written in. -/
structure IsSound (patch : ModulePatch) : Prop where
  named : ∀ module, patch.module = some module → Text.isBlankText module = false
  limits : ∀ name ∈ patch.limitModules, Text.isBlankText name = false
  qualified : ∀ package, package ∈ patch.addExports.keys ∨ package ∈ patch.addOpens.keys →
    isValidName package = true ∧
      ∀ module, patch.module = some module → isValidName module = true

theorem isSound_create (module : Option String) : (ModulePatch.create module).IsSound where
  named := by
    intro name named
    obtain ⟨_, visible⟩ := Option.filter_eq_some_iff.mp named
    simpa using visible
  limits := by
    intro name absent
    cases absent
  qualified := by
    intro package absent
    rcases absent with absent | absent
    · cases absent
    · cases absent

theorem IsWellNamed.isSound {patch : ModulePatch} (sound : patch.IsWellNamed) :
    patch.IsSound where
  named := fun module named => Patch.isBlankText_of_valid (sound.module module named)
  limits := by
    intro name present
    have valid := (sound.limitModules name present).resolve_right List.not_mem_nil
    exact Patch.isBlankText_of_valid valid
  qualified := by
    intro package present
    refine ⟨?_, sound.module⟩
    rcases present with exported | opened
    · obtain ⟨entry, among, rfl⟩ := List.mem_map.mp exported
      exact (sound.addExports entry among).1
    · obtain ⟨entry, among, rfl⟩ := List.mem_map.mp opened
      exact (sound.addOpens entry among).1

/-- A package in its module is told from every other. -/
theorem qualified_inj {module other package another : String}
    (valid : isValidName module = true ∧ isValidName package = true)
    (otherValid : isValidName other = true ∧ isValidName another = true)
    (same : beforeEquals (module ++ "/" ++ package) = beforeEquals (other ++ "/" ++ another)) :
    module = other ∧ package = another := by
  have noEquals : ∀ {module package : String}, isValidName module = true →
      isValidName package = true → '=' ∉ (module ++ "/" ++ package).toList := by
    intro module package first second present
    rw [String.toList_append, String.toList_append, List.mem_append, List.mem_append] at present
    rcases present with (inside | slash) | inside
    · exact Patch.not_mem_of_valid first (by decide) (by decide) inside
    · exact absurd slash (by decide)
    · exact Patch.not_mem_of_valid second (by decide) (by decide) inside
  have noSlash : ∀ {module : String}, isValidName module = true → '/' ∉ module.toList :=
    fun valid => Patch.not_mem_of_valid valid (by decide) (by decide)
  rw [beforeEquals_of_not_mem (noEquals valid.1 valid.2),
    beforeEquals_of_not_mem (noEquals otherValid.1 otherValid.2)] at same
  simp only [String.toList_append, List.append_assoc] at same
  have cut := congrArg (Text.fields '/') same
  rw [show "/".toList = ['/'] from rfl, List.singleton_append, List.singleton_append,
    Text.fields_append_separator (noSlash valid.1),
    Text.fields_append_separator (noSlash otherValid.1)] at cut
  have modules : module = other := String.toList_inj.mp (List.cons.inj cut).1
  rw [modules] at same
  refine ⟨modules, String.toList_inj.mp ?_⟩
  exact List.append_cancel_left (List.append_cancel_left same)

/-! ### Keys -/

def exportedPackages (patch : ModulePatch) : List String :=
  (patch.addExports.entries.filter fun (package, targets) =>
    !(patch.exportTargets package targets).isEmpty).map Prod.fst

def openedPackages (patch : ModulePatch) : List String :=
  (patch.addOpens.entries.filter fun (_, targets) => !targets.isEmpty).map Prod.fst

def packageKey (module package : String) : List Char :=
  beforeEquals (module ++ "/" ++ package)

/-- What the options of a patch are about, option by option; for tests there is also an option
for the roots of its module. -/
def topics (patch : ModulePatch) (test : Bool) : List (String × List (List Char)) :=
  ("--limit-modules", if patch.limitModules.isEmpty then [] else [[]]) ::
    match patch.module with
    | none => []
    | some module =>
      [("--add-reads", if patch.addReads.isEmpty then [] else [beforeEquals module]),
        ("--add-exports", patch.exportedPackages.map (packageKey module)),
        ("--add-opens", if test then patch.openedPackages.map (packageKey module) else []),
        ("--patch-module", if test then [beforeEquals module] else [])]

def keys (patch : ModulePatch) (test : Bool) : List (String × List Char) :=
  (patch.topics test).flatMap fun (option, keys) => keys.map (option, ·)

def rootsKeys (test : Bool) : Option String → List (String × List Char)
  | none => []
  | some module => if test then [("--patch-module", beforeEquals module)] else []

private theorem flatMap_unless {α β : Type} (elements : List α) (skips : α → Bool)
    (shown : α → β) :
    (elements.flatMap fun element => if skips element then [] else [shown element]) =
      (elements.filter fun element => !skips element).map shown := by
  induction elements with
  | nil => rfl
  | cons element rest ih =>
      rw [List.flatMap_cons, ih, List.filter_cons]
      cases skips element with
      | true => rfl
      | false => rfl

private theorem keys_qualified {option : String} (own : "--" ++ option ≠ "--add-modules")
    (plain : "--" ++ option ≠ "--limit-modules") (module : String)
    (entries : List (String × NameSet)) (targets : String × NameSet → NameSet) :
    (kept (entries.flatMap fun entry =>
      offer option (some (module ++ "/" ++ entry.1)) (targets entry))).map optionKey =
      (((entries.filter fun entry => !(targets entry).isEmpty).map Prod.fst).map
        (packageKey module)).map ("--" ++ option, ·) := by
  rw [keys_kept_flatMap]
  simp only [keys_kept_keyed own plain]
  rw [flatMap_unless entries (fun entry => (targets entry).isEmpty)]
  rw [List.map_map, List.map_map]
  rfl

private theorem keys_limits {names : NameSet}
    (visible : ∀ name ∈ names, Text.isBlankText name = false) :
    (kept (offer "limit-modules" none names)).map optionKey =
      if names.isEmpty then [] else [("--limit-modules", [])] := by
  unfold DistinctList.isEmpty
  cases listed : names.toList with
  | nil =>
      rw [offer_eq_nil_iff.mpr listed]
      rfl
  | cons name rest =>
      have inside := DistinctList.mem_of_toList_eq_cons listed
      have shown := Text.isBlankText_joinFields inside (visible name inside) ","
      rw [offer_none_of_mem inside, kept_of_visible shown]
      rfl

private theorem keys_exported (patch : ModulePatch) (module : String) :
    (kept (patch.addExports.entries.flatMap fun (package, targets) =>
      offer "add-exports" (some (module ++ "/" ++ package))
        (patch.exportTargets package targets))).map optionKey =
      (patch.exportedPackages.map (packageKey module)).map ("--add-exports", ·) :=
  @keys_qualified "add-exports" (by decide) (by decide) module patch.addExports.entries
    fun entry => patch.exportTargets entry.1 entry.2

private theorem keys_opened (patch : ModulePatch) (module : String) :
    (kept (patch.addOpens.entries.flatMap fun (package, targets) =>
      offer "add-opens" (some (module ++ "/" ++ package)) targets)).map optionKey =
      (patch.openedPackages.map (packageKey module)).map ("--add-opens", ·) :=
  @keys_qualified "add-opens" (by decide) (by decide) module patch.addOpens.entries
    fun entry => entry.2

/-- The options of a patch are about its topics. -/
theorem keys_offers {patch : ModulePatch} (sound : patch.IsSound) (test : Bool) :
    (kept (patch.offers test)).map optionKey ++ rootsKeys test patch.module =
      patch.keys test := by
  unfold offers keys topics
  rw [kept_append, List.map_append, keys_limits sound.limits, List.flatMap_cons]
  have limits : (if patch.limitModules.isEmpty then [] else [("--limit-modules", [])]) =
      (if patch.limitModules.isEmpty then [] else [([] : List Char)]).map
        ("--limit-modules", ·) := by
    cases patch.limitModules.isEmpty with
    | true => rfl
    | false => rfl
  rw [limits, List.append_assoc]
  congr 1
  cases patch.module with
  | none => rfl
  | some module =>
      have reads := @keys_kept_keyed "add-reads" (by decide) (by decide) module patch.addReads
      simp only [namedOffers, kept_append, List.map_append, keys_exported, reads]
      cases test with
      | true =>
          simp only [if_true, keys_opened]
          cases patch.addReads.isEmpty <;> simp [rootsKeys]
      | false =>
          cases patch.addReads.isEmpty <;> simp [rootsKeys, kept]

variable {patch left right : ModulePatch} {test : Bool}

theorem valid_of_exported (sound : patch.IsSound) {package : String}
    (present : package ∈ patch.exportedPackages) :
    isValidName package = true ∧
      ∀ module, patch.module = some module → isValidName module = true := by
  obtain ⟨entry, among, rfl⟩ := List.mem_map.mp present
  exact sound.qualified entry.1 (Or.inl (List.mem_map_of_mem (List.mem_filter.mp among).1))

theorem valid_of_opened (sound : patch.IsSound) {package : String}
    (present : package ∈ patch.openedPackages) :
    isValidName package = true ∧
      ∀ module, patch.module = some module → isValidName module = true := by
  obtain ⟨entry, among, rfl⟩ := List.mem_map.mp present
  exact sound.qualified entry.1 (Or.inr (List.mem_map_of_mem (List.mem_filter.mp among).1))

private theorem nodup_packageKeys {module : String} {packages : List String}
    (distinct : packages.Nodup)
    (valid : ∀ package ∈ packages, isValidName package = true ∧ isValidName module = true) :
    (packages.map (packageKey module)).Nodup := by
  rw [List.nodup_map_iff_inj_on distinct]
  intro package present other among same
  exact (qualified_inj (valid package present).symm (valid other among).symm same).2

private theorem nodup_of_mem_topics (sound : patch.IsSound) {topic : String × List (List Char)}
    (present : topic ∈ patch.topics test) : topic.2.Nodup := by
  have single : ∀ (skips : Bool) (key : List Char), (if skips then [] else [key]).Nodup := by
    intro skips key
    cases skips with
    | true => exact List.nodup_nil
    | false => exact List.nodup_singleton key
  unfold topics at present
  rcases List.mem_cons.mp present with rfl | present
  · exact single _ _
  · cases named : patch.module with
    | none =>
        rw [named] at present
        cases present
    | some module =>
        rw [named] at present
        simp only [List.mem_cons, List.not_mem_nil, or_false] at present
        rcases present with rfl | rfl | rfl | rfl
        · exact single _ _
        · have distinct : patch.exportedPackages.Nodup :=
            patch.addExports.keys_nodup.sublist (List.filter_sublist.map Prod.fst)
          exact nodup_packageKeys distinct fun package inside =>
            ⟨(valid_of_exported sound inside).1, (valid_of_exported sound inside).2 module named⟩
        · have distinct : patch.openedPackages.Nodup :=
            patch.addOpens.keys_nodup.sublist (List.filter_sublist.map Prod.fst)
          cases test with
          | false => exact List.nodup_nil
          | true =>
              exact nodup_packageKeys distinct fun package inside =>
                ⟨(valid_of_opened sound inside).1, (valid_of_opened sound inside).2 module named⟩
        · cases test with
          | false => exact List.nodup_nil
          | true => exact List.nodup_singleton _

private theorem options_topics (patch : ModulePatch) (test : Bool) :
    (patch.topics test).Pairwise fun topic other => topic.1 ≠ other.1 := by
  unfold topics
  cases patch.module with
  | none => exact List.pairwise_singleton _ _
  | some module => simp

/-- No two options of one patch are about the same thing. -/
theorem nodup_keys (sound : patch.IsSound) (test : Bool) : (patch.keys test).Nodup := by
  unfold keys
  rw [List.nodup_flatMap]
  constructor
  · intro topic present
    exact (nodup_of_mem_topics sound present).map fun _ _ same => congrArg Prod.snd same
  · apply (options_topics patch test).imp
    intro topic other different key present among
    obtain ⟨_, _, rfl⟩ := List.mem_map.mp present
    obtain ⟨_, _, same⟩ := List.mem_map.mp among
    exact different (congrArg Prod.fst same).symm

/-! ### Contradictions -/

/-- Two patches of one compilation have options about the same thing.  For tests, each patch of
a module has an option for the roots of the module. -/
def Contradicts (test : Bool) (left right : ModulePatch) : Prop :=
  (left.limitModules.isEmpty = false ∧ right.limitModules.isEmpty = false) ∨
  ∃ module other, left.module = some module ∧ right.module = some other ∧
    beforeEquals module = beforeEquals other ∧
    (test = true ∨ (left.addReads.isEmpty = false ∧ right.addReads.isEmpty = false) ∨
      ∃ package, package ∈ left.exportedPackages ∧ package ∈ right.exportedPackages)

theorem mem_keys {key : String × List Char} :
    key ∈ patch.keys test ↔
      (key = ("--limit-modules", []) ∧ patch.limitModules.isEmpty = false) ∨
      ∃ module, patch.module = some module ∧
        ((key = ("--add-reads", beforeEquals module) ∧ patch.addReads.isEmpty = false) ∨
        (∃ package ∈ patch.exportedPackages, key = ("--add-exports", packageKey module package)) ∨
        (test = true ∧
          ∃ package ∈ patch.openedPackages, key = ("--add-opens", packageKey module package)) ∨
        (test = true ∧ key = ("--patch-module", beforeEquals module))) := by
  unfold keys topics
  cases patch.module with
  | none => cases patch.limitModules.isEmpty <;> simp
  | some module =>
      cases patch.limitModules.isEmpty <;> cases patch.addReads.isEmpty <;> cases test <;>
        simp [eq_comm]

section Options

variable {key : List Char}

private theorem mem_limits : ("--limit-modules", key) ∈ patch.keys test ↔
    key = [] ∧ patch.limitModules.isEmpty = false := by
  simp [mem_keys]

private theorem mem_reads : ("--add-reads", key) ∈ patch.keys test ↔
    ∃ module, patch.module = some module ∧ key = beforeEquals module ∧
      patch.addReads.isEmpty = false := by
  simp [mem_keys]

private theorem mem_exports : ("--add-exports", key) ∈ patch.keys test ↔
    ∃ module, patch.module = some module ∧
      ∃ package ∈ patch.exportedPackages, key = packageKey module package := by
  simp [mem_keys]

private theorem mem_opens : ("--add-opens", key) ∈ patch.keys test ↔
    ∃ module, patch.module = some module ∧ test = true ∧
      ∃ package ∈ patch.openedPackages, key = packageKey module package := by
  simp [mem_keys]

private theorem mem_roots : ("--patch-module", key) ∈ patch.keys test ↔
    ∃ module, patch.module = some module ∧ test = true ∧ key = beforeEquals module := by
  simp [mem_keys]

end Options

private theorem beforeEquals_of_valid {module : String} (valid : isValidName module = true) :
    beforeEquals module = module.toList :=
  beforeEquals_of_not_mem (Patch.not_mem_of_valid valid (by decide) (by decide))

/-- Two patches have options about the same thing exactly if they contradict each other. -/
theorem disjoint_keys_iff (sound : left.IsSound) (otherSound : right.IsSound) :
    (left.keys test).Disjoint (right.keys test) ↔ ¬Contradicts test left right := by
  constructor
  · intro apart contradicts
    rcases contradicts with ⟨limited, otherLimited⟩ | ⟨module, other, named, otherNamed, same, why⟩
    · exact apart (mem_limits.mpr ⟨rfl, limited⟩) (mem_limits.mpr ⟨rfl, otherLimited⟩)
    · rcases why with forTest | ⟨reads, otherReads⟩ | ⟨package, exported, otherExported⟩
      · exact apart (mem_roots.mpr ⟨module, named, forTest, rfl⟩)
          (mem_roots.mpr ⟨other, otherNamed, forTest, same⟩)
      · exact apart (mem_reads.mpr ⟨module, named, rfl, reads⟩)
          (mem_reads.mpr ⟨other, otherNamed, same, otherReads⟩)
      · have valid := (valid_of_exported sound exported).2 module named
        have otherValid := (valid_of_exported otherSound otherExported).2 other otherNamed
        have modules : module = other := by
          rw [beforeEquals_of_valid valid, beforeEquals_of_valid otherValid] at same
          exact String.toList_inj.mp same
        exact apart (mem_exports.mpr ⟨module, named, package, exported, rfl⟩)
          (mem_exports.mpr ⟨other, otherNamed, package, otherExported, by rw [modules]⟩)
  · intro agree key present among
    apply agree
    rcases mem_keys.mp present with ⟨rfl, limited⟩ | ⟨module, named, topic⟩
    · exact Or.inl ⟨limited, (mem_limits.mp among).2⟩
    · right
      rcases topic with ⟨rfl, reads⟩ | ⟨package, exported, rfl⟩ | ⟨forTest, package, opened, rfl⟩ |
        ⟨forTest, rfl⟩
      · obtain ⟨other, otherNamed, same, otherReads⟩ := mem_reads.mp among
        exact ⟨module, other, named, otherNamed, same, Or.inr (Or.inl ⟨reads, otherReads⟩)⟩
      · obtain ⟨other, otherNamed, another, otherExported, same⟩ := mem_exports.mp among
        have valid := valid_of_exported sound exported
        have otherValid := valid_of_exported otherSound otherExported
        obtain ⟨rfl, rfl⟩ := qualified_inj ⟨valid.2 module named, valid.1⟩
          ⟨otherValid.2 other otherNamed, otherValid.1⟩ same
        exact ⟨module, module, named, otherNamed, rfl,
          Or.inr (Or.inr ⟨package, exported, otherExported⟩)⟩
      · obtain ⟨other, otherNamed, _, another, otherOpened, same⟩ := mem_opens.mp among
        have valid := valid_of_opened sound opened
        have otherValid := valid_of_opened otherSound otherOpened
        obtain ⟨rfl, rfl⟩ := qualified_inj ⟨valid.2 module named, valid.1⟩
          ⟨otherValid.2 other otherNamed, otherValid.1⟩ same
        exact ⟨module, module, named, otherNamed, rfl, Or.inl forTest⟩
      · obtain ⟨other, otherNamed, _, same⟩ := mem_roots.mp among
        exact ⟨module, other, named, otherNamed, same, Or.inl forTest⟩

end ModulePlan.ModulePatch
