/-
Which of the offered options are put into a list.

An option is offered for names that are there, and put in unless its value is blank.
-/

import ModulePlan.ModulePatch
import ModulePlan.Proofs.DistinctList
import ModulePlan.Proofs.Text.Fields

namespace ModulePlan

/-! ### Adding options -/

/-- The offered options with a value worth writing. -/
def kept (offers : List Offer) : List Offer :=
  offers.filter fun offer => CompilerOptions.isWorthWriting (some offer.2)

theorem kept_append (first second : List Offer) :
    kept (first ++ second) = kept first ++ kept second :=
  List.filter_append ..

theorem mem_kept {offers : List Offer} {offer : Offer} :
    offer ∈ kept offers ↔ offer ∈ offers ∧ Text.isBlankText offer.2 = false := by
  unfold kept CompilerOptions.isWorthWriting
  rw [List.mem_filter, Bool.not_eq_true']

theorem kept_of_visible {value : String} (visible : Text.isBlankText value = false)
    (option : String) : kept [(option, value)] = [(option, value)] := by
  unfold kept CompilerOptions.isWorthWriting
  simp [visible]

theorem CompilerOptions.pairs_addAll (options : CompilerOptions) (offers : List Offer) :
    (options.addAll offers).pairs = options.pairs ++ kept offers := by
  induction offers generalizing options with
  | nil => exact (List.append_nil _).symm
  | cons offer rest ih =>
      have later : (options.addAll (offer :: rest)).pairs =
          (options.add offer.1 (some offer.2)).pairs ++ kept rest :=
        ih (options.add offer.1 (some offer.2))
      rw [later]
      unfold kept CompilerOptions.add CompilerOptions.isWorthWriting
      cases blank : Text.isBlankText offer.2 with
      | true => simp [blank]
      | false => simp [blank]

/-! ### Options for names -/

theorem offer_eq_nil_iff {option : String} {key : Option String} {names : NameSet} :
    offer option key names = [] ↔ names.toList = [] := by
  unfold offer DistinctList.isEmpty
  cases names.toList with
  | nil => simp
  | cons name rest => cases key <;> simp

theorem offer_none_of_mem {name : String} {names : NameSet} (present : name ∈ names)
    (option : String) :
    offer option none names = [("--" ++ option, Text.joinFields "," names.toList)] := by
  unfold offer DistinctList.isEmpty
  rw [List.isEmpty_eq_false_iff.mpr (List.ne_nil_of_mem present), if_neg Bool.false_ne_true]

theorem offer_some_of_mem {name : String} {names : NameSet} (present : name ∈ names)
    (option key : String) :
    offer option (some key) names =
      [("--" ++ option, key ++ "=" ++ Text.joinFields "," names.toList)] := by
  unfold offer DistinctList.isEmpty
  rw [List.isEmpty_eq_false_iff.mpr (List.ne_nil_of_mem present), if_neg Bool.false_ne_true]

theorem mem_offer {option : String} {key : Option String} {names : NameSet} {pair : Offer} :
    pair ∈ offer option key names ↔
      (∃ name, name ∈ names) ∧
        pair = ("--" ++ option,
          match key with
          | none => Text.joinFields "," names.toList
          | some key => key ++ "=" ++ Text.joinFields "," names.toList) := by
  cases given : names.toList with
  | nil =>
      have empty : ¬∃ name, name ∈ names := by
        rintro ⟨name, present⟩
        rw [← DistinctList.mem_toList, given] at present
        cases present
      rw [offer_eq_nil_iff.mpr given]
      exact ⟨fun absent => absurd absent List.not_mem_nil, fun held => absurd held.1 empty⟩
  | cons name rest =>
      have inside := DistinctList.mem_of_toList_eq_cons given
      rw [and_iff_right ⟨name, inside⟩, ← given]
      cases key with
      | none => rw [offer_none_of_mem inside, List.mem_singleton]
      | some key => rw [offer_some_of_mem inside, List.mem_singleton]

theorem option_of_mem_offer {option : String} {key : Option String} {names : NameSet}
    {pair : Offer} (present : pair ∈ offer option key names) : pair.1 = "--" ++ option := by
  rw [(mem_offer.mp present).2]

theorem RootModules.mem_offers {roots : RootModules} {pair : Offer}
    (present : pair ∈ roots.offers) : pair ∈ offer "add-modules" none roots.names := by
  unfold RootModules.offers at present
  split at present
  · cases present
  · exact present

/-- Without a module, a patch offers nothing but the limits of the compilation. -/
theorem ModulePatch.mem_offers {patch : ModulePatch} {opens : Bool} {pair : Offer}
    (present : pair ∈ patch.offers opens) :
    pair ∈ offer "limit-modules" none patch.limitModules ∨
    ∃ module, patch.module = some module ∧
      (pair ∈ offer "add-reads" (some module) patch.addReads ∨
      (∃ entry ∈ patch.addExports.entries,
        pair ∈ offer "add-exports" (some (module ++ "/" ++ entry.1))
          (patch.exportTargets entry.1 entry.2)) ∨
      ∃ entry ∈ patch.addOpens.entries,
        pair ∈ offer "add-opens" (some (module ++ "/" ++ entry.1)) entry.2) := by
  unfold ModulePatch.offers at present
  rcases List.mem_append.mp present with limits | own
  · exact Or.inl limits
  · right
    cases named : patch.module with
    | none =>
        rw [named] at own
        cases own
    | some module =>
        rw [named] at own
        refine ⟨module, rfl, ?_⟩
        rcases List.mem_append.mp own with own | opened
        · rcases List.mem_append.mp own with read | exported
          · exact Or.inl read
          · exact Or.inr (Or.inl (List.mem_flatMap.mp exported))
        · split at opened
          · exact Or.inr (Or.inr (List.mem_flatMap.mp opened))
          · cases opened

/-! ### What an option is about -/

def beforeEquals (text : String) : List Char :=
  text.toList.takeWhile (· ≠ '=')

/-- An option and what it is about: a module, a package of a module, or the whole compilation. -/
def optionKey (pair : Offer) : String × List Char :=
  (pair.1,
    if pair.1 = "--add-modules" ∨ pair.1 = "--limit-modules" then [] else beforeEquals pair.2)

theorem keys_kept_flatMap {α : Type} (elements : List α) (offers : α → List Offer) :
    (kept (elements.flatMap offers)).map optionKey =
      elements.flatMap fun element => (kept (offers element)).map optionKey := by
  unfold kept
  rw [List.filter_flatMap, List.map_flatMap]

theorem beforeEquals_of_not_mem {text : String} (absent : '=' ∉ text.toList) :
    beforeEquals text = text.toList := by
  have different : ∀ c ∈ text.toList, decide (c ≠ '=') = true := by
    intro c present
    apply decide_eq_true
    intro same
    rcases same with rfl
    exact absent present
  have all := @List.takeWhile_append_of_pos _ _ _ [] different
  rw [List.append_nil] at all
  exact all.trans (List.append_nil _)

theorem beforeEquals_keyed (key value : String) :
    beforeEquals (key ++ "=" ++ value) = beforeEquals key := by
  have cut : ∀ cs : List Char,
      (cs ++ '=' :: value.toList).takeWhile (· ≠ '=') = cs.takeWhile (· ≠ '=') := by
    intro cs
    induction cs with
    | nil => rfl
    | cons c rest ih =>
        rw [List.cons_append, List.takeWhile_cons, List.takeWhile_cons, ih]
  unfold beforeEquals
  rw [String.toList_append, String.toList_append, List.append_assoc]
  exact cut key.toList

/-- A value behind a key is not blank. -/
theorem visible_keyed (key value : String) :
    Text.isBlankText (key ++ "=" ++ value) = false := by
  have inside : "=".toList ⊆ (key ++ "=" ++ value).toList := by
    intro c present
    rw [String.toList_append, String.toList_append]
    exact List.mem_append_left _ (List.mem_append_right _ present)
  exact Text.isBlankText_of_subset inside (by decide)

theorem keys_kept_keyed {option : String} (own : "--" ++ option ≠ "--add-modules")
    (plain : "--" ++ option ≠ "--limit-modules") (key : String) (names : NameSet) :
    (kept (offer option (some key) names)).map optionKey =
      if names.isEmpty then [] else [("--" ++ option, beforeEquals key)] := by
  unfold offer
  cases names.isEmpty with
  | true => rfl
  | false =>
      simp only [Bool.false_eq_true, if_false]
      rw [kept_of_visible (visible_keyed key _), List.map_singleton]
      unfold optionKey
      rw [if_neg (not_or.mpr ⟨own, plain⟩), beforeEquals_keyed]

/-! ### The modules of the compilation -/

/-- The option for the modules of the whole compilation; without any there is none. -/
def rootOption (names : List String) : List Offer :=
  if names = [] then [] else [("--add-modules", Text.joinFields "," names)]

theorem exists_mem_rootOption_iff {names : List String} :
    (∃ value, ("--add-modules", value) ∈ rootOption names) ↔ ∃ name, name ∈ names := by
  unfold rootOption
  cases names with
  | nil => simp
  | cons name rest => simp

/-- Names that are not blank are not lost. -/
theorem kept_offer_roots {names : NameSet}
    (visible : ∀ name ∈ names, Text.isBlankText name = false) :
    kept (offer "add-modules" none names) = rootOption names.toList := by
  unfold rootOption
  cases given : names.toList with
  | nil =>
      rw [offer_eq_nil_iff.mpr given, if_pos rfl]
      rfl
  | cons name rest =>
      have inside := DistinctList.mem_of_toList_eq_cons given
      have shown : Text.isBlankText (Text.joinFields "," names.toList) = false :=
        Text.isBlankText_joinFields inside (visible name inside) ","
      rw [offer_none_of_mem inside, if_neg (List.cons_ne_nil name rest), ← given]
      exact kept_of_visible shown _

end ModulePlan
