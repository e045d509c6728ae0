/-
The options of a patch, read back.

An option says which names are changed, and of which module and package.  What is written of a
freshly loaded patch file says again what the file says: nothing is lost, nothing is added, and
everything stands in its order.
-/

import ModulePlan.Proofs.CompilationUnit.Names
import ModulePlan.Proofs.CompilerOptions

namespace ModulePlan

open Patch

/-! ### Reading options -/

/-- What an option says: some names, and the module and the package that they are for. -/
structure Clause where
  option : String
  module : Option String := none
  package : Option String := none
  names : List String
deriving DecidableEq

namespace Clause

def namesIn (text : List Char) : List String :=
  (Text.fields ',' text).map String.ofList

/-- What stands before an equals sign is a module, or behind a slash a package of the module. -/
def ofKey (option : String) (key : List Char) (names : List String) : Clause :=
  match Text.cutAt? '/' key with
  | none => { option := option, module := some (String.ofList key), names := names }
  | some (module, package) => {
      option := option
      module := some (String.ofList module)
      package := some (String.ofList package)
      names := names }

/-- Reads an option.  The names are behind the first equals sign; what is before it is cut at the
first slash. -/
def ofPair (pair : Offer) : Clause :=
  match Text.cutAt? '=' pair.2.toList with
  | none => { option := pair.1, names := namesIn pair.2.toList }
  | some (key, names) => ofKey pair.1 key (namesIn names)

def under (keyword : Keyword) (clauses : List Clause) : List Clause :=
  clauses.filter (·.option = "--" ++ keyword.word)

def namesUnder (keyword : Keyword) (clauses : List Clause) : List String :=
  (under keyword clauses).flatMap (·.names)

def targetsUnder (keyword : Keyword) (clauses : List Clause) : List (String × List String) :=
  (under keyword clauses).map fun clause => (clause.package.getD "", clause.names)

end Clause

/-- Changes to the module graph, written out. -/
structure Changes where
  addModules : List String
  limitModules : List String
  addReads : List String
  addExports : List (String × List String)
  addOpens : List (String × List String)
deriving DecidableEq

namespace Changes

def ofClauses (clauses : List Clause) : Changes where
  addModules := Clause.namesUnder .addModules clauses
  limitModules := Clause.namesUnder .limitModules clauses
  addReads := Clause.namesUnder .addReads clauses
  addExports := Clause.targetsUnder .addExports clauses
  addOpens := Clause.targetsUnder .addOpens clauses

def ofOverrides (overrides : Overrides) : Changes where
  addModules := overrides.addModules.toList
  limitModules := overrides.limitModules.toList
  addReads := overrides.addReads.toList
  addExports := overrides.addExports.entries.map fun (package, targets) =>
    (package, targets.toList)
  addOpens := overrides.addOpens.entries.map fun (package, targets) =>
    (package, targets.toList)

/-- Is there anything to change under a keyword? -/
def mentions (changes : Changes) : Keyword → Bool
  | .addModules => !changes.addModules.isEmpty
  | .limitModules => !changes.limitModules.isEmpty
  | .addReads => !changes.addReads.isEmpty
  | .addExports => !changes.addExports.isEmpty
  | .addOpens => !changes.addOpens.isEmpty

end Changes

namespace Clause

theorem namesIn_ne_nil (text : List Char) : namesIn text ≠ [] := by
  unfold namesIn
  rw [ne_eq, List.map_eq_nil_iff]
  exact Text.fields_ne_nil ',' text

private theorem ofKey_keeps (option : String) (key : List Char) (names : List String) :
    (ofKey option key names).option = option ∧ (ofKey option key names).names = names := by
  unfold ofKey
  split
  · exact ⟨rfl, rfl⟩
  · exact ⟨rfl, rfl⟩

theorem option_ofPair (pair : Offer) : (ofPair pair).option = pair.1 := by
  unfold ofPair
  split
  · rfl
  · exact (ofKey_keeps _ _ _).1

theorem names_ofPair (pair : Offer) : (ofPair pair).names ≠ [] := by
  unfold ofPair
  split
  · exact namesIn_ne_nil _
  · rw [(ofKey_keeps _ _ _).2]
    exact namesIn_ne_nil _

theorem namesIn_joinFields {names : List String} (some : names ≠ [])
    (whole : ∀ name ∈ names, ',' ∉ name.toList) :
    namesIn (Text.joinFields "," names).toList = names := by
  have same : String.ofList ∘ String.toList = id := funext fun _ => String.ofList_toList
  unfold namesIn
  rw [Text.fields_joinFields rfl some whole, List.map_map, same, List.map_id]

theorem under_map_ofPair_ne_nil_iff {keyword : Keyword} {pairs : List Offer} :
    under keyword (pairs.map ofPair) ≠ [] ↔ ∃ value, ("--" ++ keyword.word, value) ∈ pairs := by
  unfold under
  rw [ne_eq, List.filter_eq_nil_iff]
  constructor
  · intro given
    simp only [not_forall, List.mem_map, decide_eq_true_eq, not_not] at given
    obtain ⟨clause, ⟨pair, present, rfl⟩, same⟩ := given
    rw [option_ofPair] at same
    exact ⟨pair.2, same ▸ present⟩
  · intro given none
    obtain ⟨value, present⟩ := given
    apply none _ (List.mem_map_of_mem present)
    rw [option_ofPair]
    exact decide_eq_true rfl

end Clause

/-- There is something to change under a keyword exactly if an option says so. -/
theorem Changes.mentions_ofClauses {pairs : List Offer} {keyword : Keyword} :
    (Changes.ofClauses (pairs.map Clause.ofPair)).mentions keyword = true ↔
      ∃ value, ("--" ++ keyword.word, value) ∈ pairs := by
  have names : ∀ keyword, Clause.namesUnder keyword (pairs.map Clause.ofPair) = [] ↔
      Clause.under keyword (pairs.map Clause.ofPair) = [] := by
    intro keyword
    unfold Clause.namesUnder
    rw [List.flatMap_eq_nil_iff, List.eq_nil_iff_forall_not_mem]
    apply forall₂_congr
    intro clause present
    obtain ⟨pair, _, rfl⟩ := List.mem_map.mp (List.mem_filter.mp present).1
    simp only [Clause.names_ofPair]
  have targets : ∀ keyword, Clause.targetsUnder keyword (pairs.map Clause.ofPair) = [] ↔
      Clause.under keyword (pairs.map Clause.ofPair) = [] := by
    intro keyword
    unfold Clause.targetsUnder
    rw [List.map_eq_nil_iff]
  rw [← Clause.under_map_ofPair_ne_nil_iff]
  cases keyword <;> simp [mentions, ofClauses, names, targets]

/-! ### Writing and reading -/

/-- The options that are put in of those offered, read. -/
def clausesOf (offers : List Offer) : List Clause :=
  (kept offers).map Clause.ofPair

theorem clausesOf_append (first second : List Offer) :
    clausesOf (first ++ second) = clausesOf first ++ clausesOf second := by
  unfold clausesOf
  rw [kept_append, List.map_append]

namespace Clause

def ofNames (option : String) (module : Option String) (names : NameSet) : List Clause :=
  if names.isEmpty then []
  else [{ option := "--" ++ option, module := module, names := names.toList }]

def ofTargets (option module : String) (targets : Targets) : List Clause :=
  targets.entries.map fun (package, names) => {
    option := "--" ++ option
    module := some module
    package := some package
    names := names.toList }

end Clause

/-- The words that the compiler knows. -/
def compilerWords : List String :=
  [allModulePath, allUnnamed]

section Names

variable {names : NameSet} (named : AreNames compilerWords names)

include named in
private theorem not_mem_of_names {c : Char} (noDot : c ≠ '.')
    (noPart : Text.isIdentifierPart c = false)
    (free : ∀ word ∈ compilerWords, c ∉ word.toList) :
    ∀ name ∈ names, c ∉ name.toList := by
  intro name present
  rcases named name present with valid | word
  · exact not_mem_of_valid valid noDot noPart
  · exact free name word

include named in
private theorem namesIn_of_names {name : String} (present : name ∈ names) :
    Clause.namesIn (Text.joinFields "," names.toList).toList = names.toList := by
  apply Clause.namesIn_joinFields (List.ne_nil_of_mem present)
  exact not_mem_of_names named (by decide) (by decide) (by decide)

include named in
private theorem visible_of_names {name : String} (present : name ∈ names) :
    Text.isBlankText name = false := by
  have shown : ∀ word ∈ compilerWords, Text.isBlankText word = false := by decide
  rcases named name present with valid | word
  · exact isBlankText_of_valid valid
  · exact shown name word

include named in
/-- Names without a key are found again. -/
theorem clausesOf_offer (option : String) :
    clausesOf (offer option none names) = Clause.ofNames option none names := by
  unfold Clause.ofNames DistinctList.isEmpty
  cases listed : names.toList with
  | nil =>
      rw [offer_eq_nil_iff.mpr listed]
      rfl
  | cons name rest =>
      have present := DistinctList.mem_of_toList_eq_cons listed
      have visible := visible_of_names named present
      have uncut : Text.cutAt? '=' (Text.joinFields "," names.toList).toList = none := by
        apply Text.cutAt?_of_not_mem
        apply Text.not_mem_joinFields (by decide)
        exact not_mem_of_names named (by decide) (by decide) (by decide)
      rw [offer_none_of_mem present, ← listed]
      unfold clausesOf
      rw [kept_of_visible (Text.isBlankText_joinFields present visible ","), List.map_singleton]
      unfold Clause.ofPair
      simp only [uncut, namesIn_of_names named present]
      rw [listed]
      rfl

include named in
/-- Names behind a key are found again, and so is the key. -/
private theorem clausesOf_keyed {key : String} (whole : '=' ∉ key.toList) (option : String) :
    clausesOf (offer option (some key) names) =
      if names.isEmpty then [] else [Clause.ofKey ("--" ++ option) key.toList names.toList] := by
  unfold DistinctList.isEmpty
  cases listed : names.toList with
  | nil =>
      rw [offer_eq_nil_iff.mpr listed]
      rfl
  | cons name rest =>
      have present := DistinctList.mem_of_toList_eq_cons listed
      have cut : Text.cutAt? '=' (key ++ "=" ++ Text.joinFields "," names.toList).toList =
          some (key.toList, (Text.joinFields "," names.toList).toList) := by
        rw [String.toList_append, String.toList_append, List.append_assoc]
        exact Text.cutAt?_append_separator whole _
      rw [offer_some_of_mem present, ← listed]
      unfold clausesOf
      rw [kept_of_visible (visible_keyed key _), List.map_singleton]
      unfold Clause.ofPair
      simp only [cut, namesIn_of_names named present]
      rw [listed]
      rfl

private theorem separators_of_valid {name : String} (valid : isValidName name = true) :
    '=' ∉ name.toList ∧ '/' ∉ name.toList :=
  ⟨not_mem_of_valid valid (by decide) (by decide),
    not_mem_of_valid valid (by decide) (by decide)⟩

include named in
theorem clausesOf_module {module : String} (valid : isValidName module = true)
    (option : String) :
    clausesOf (offer option (some module) names) =
      Clause.ofNames option (some module) names := by
  obtain ⟨whole, uncut⟩ := separators_of_valid valid
  rw [clausesOf_keyed named whole]
  unfold Clause.ofKey Clause.ofNames
  simp only [Text.cutAt?_of_not_mem uncut, String.ofList_toList]

include named in
theorem clausesOf_package {module package : String} (valid : isValidName module = true)
    (packageValid : isValidName package = true) (some : ∃ name, name ∈ names)
    (option : String) :
    clausesOf (offer option (.some (module ++ "/" ++ package)) names) = [{
      option := "--" ++ option
      module := .some module
      package := .some package
      names := names.toList }] := by
  obtain ⟨whole, uncut⟩ := separators_of_valid valid
  obtain ⟨name, present⟩ := some
  have keyWhole : '=' ∉ (module ++ "/" ++ package).toList := by
    rw [String.toList_append, String.toList_append, List.mem_append, List.mem_append, not_or,
      not_or]
    exact ⟨⟨whole, by decide⟩, (separators_of_valid packageValid).1⟩
  have cut : Text.cutAt? '/' (module ++ "/" ++ package).toList =
      .some (module.toList, package.toList) := by
    rw [String.toList_append, String.toList_append, List.append_assoc]
    exact Text.cutAt?_append_separator uncut _
  have held : names.isEmpty = false := List.isEmpty_eq_false_iff.mpr (List.ne_nil_of_mem present)
  rw [clausesOf_keyed named keyWhole, held, if_neg Bool.false_ne_true]
  unfold Clause.ofKey
  simp only [cut, String.ofList_toList]

end Names

/-- Packages with targets are all found again, in their order. -/
theorem clausesOf_packages {module : String} (valid : isValidName module = true)
    {targets : Targets} (named : AreTargets compilerWords targets)
    (some : Overrides.HaveTargets targets) (option : String) :
    clausesOf (targets.entries.flatMap fun (package, names) =>
      offer option (.some (module ++ "/" ++ package)) names) =
      Clause.ofTargets option module targets := by
  unfold clausesOf kept Clause.ofTargets
  rw [List.filter_flatMap, List.map_flatMap, List.map_eq_flatMap]
  apply List.flatMap_congr
  intro entry present
  exact clausesOf_package (named entry present).2 valid (named entry present).1
    (some entry present) option

/-! ### Patch files -/

/-- What a patch file says under a keyword, as options say it. -/
def clausesUnder (declaration : Declaration) : Keyword → List Clause
  | .addModules => Clause.ofNames "add-modules" none declaration.overrides.addModules
  | .limitModules => Clause.ofNames "limit-modules" none declaration.overrides.limitModules
  | .addReads =>
    Clause.ofNames "add-reads" (some declaration.module) declaration.overrides.addReads
  | .addExports =>
    Clause.ofTargets "add-exports" declaration.module declaration.overrides.addExports
  | .addOpens => Clause.ofTargets "add-opens" declaration.module declaration.overrides.addOpens

/-- The keywords in the order in which their options are written. -/
def writtenKeywords : List Keyword :=
  [.addModules, .limitModules, .addReads, .addExports, .addOpens]

private theorem option_of_mem_clausesUnder {declaration : Declaration} {keyword : Keyword}
    {clause : Clause} (present : clause ∈ clausesUnder declaration keyword) :
    clause.option = "--" ++ keyword.word := by
  have names : ∀ {option module names}, clause ∈ Clause.ofNames option module names →
      clause.option = "--" ++ option := by
    intro option module names present
    unfold Clause.ofNames at present
    split at present
    · cases present
    · rw [List.mem_singleton.mp present]
  have targets : ∀ {option module targets}, clause ∈ Clause.ofTargets option module targets →
      clause.option = "--" ++ option := by
    intro option module targets present
    obtain ⟨entry, _, rfl⟩ := List.mem_map.mp present
    rfl
  cases keyword with
  | addModules => exact names present
  | limitModules => exact names present
  | addReads => exact names present
  | addExports => exact targets present
  | addOpens => exact targets present

private theorem keyword_of_option {keyword other : Keyword}
    (same : "--" ++ other.word = "--" ++ keyword.word) : other = keyword := by
  revert same
  cases other <;> cases keyword <;> decide

private theorem under_clausesUnder (declaration : Declaration) (keyword : Keyword) :
    Clause.under keyword (writtenKeywords.flatMap (clausesUnder declaration)) =
      clausesUnder declaration keyword := by
  have own : ∀ other, (clausesUnder declaration other).filter
      (·.option = "--" ++ keyword.word) =
      if other = keyword then clausesUnder declaration other else [] := by
    intro other
    split
    · rename_i same
      rw [List.filter_eq_self]
      intro clause present
      rw [← same]
      exact decide_eq_true (option_of_mem_clausesUnder present)
    · rename_i different
      rw [List.filter_eq_nil_iff]
      intro clause present
      rw [option_of_mem_clausesUnder present, decide_eq_true_eq]
      exact fun same => different (keyword_of_option same)
  unfold Clause.under
  rw [List.filter_flatMap]
  simp only [own]
  cases keyword <;> simp [writtenKeywords]

private theorem changes_clausesUnder (declaration : Declaration) :
    Changes.ofClauses (writtenKeywords.flatMap (clausesUnder declaration)) =
      Changes.ofOverrides declaration.overrides := by
  have names : ∀ option module (names : NameSet),
      (Clause.ofNames option module names).flatMap (·.names) = names.toList := by
    intro option module names
    unfold Clause.ofNames DistinctList.isEmpty
    cases names.toList with
    | nil => rfl
    | cons name rest => exact List.append_nil _
  have targets : ∀ option module (targets : Targets),
      ((Clause.ofTargets option module targets).map fun clause =>
        (clause.package.getD "", clause.names)) =
        targets.entries.map fun (package, names) => (package, names.toList) := by
    intro option module targets
    unfold Clause.ofTargets
    rw [List.map_map]
    rfl
  unfold Changes.ofClauses Changes.ofOverrides Clause.namesUnder Clause.targetsUnder
  simp only [under_clausesUnder, clausesUnder, names, targets]

private theorem mergeTargets_empty (targets : Targets) :
    ModulePatch.mergeTargets .empty targets = targets := by
  apply KeyedList.eq_of_entries
  have gathered := KeyedList.entries_gather_of_nodup Prod.fst (fun _ => DistinctList.empty)
    (fun names entry => names.union entry.2) targets.keys_nodup
  have same : (ModulePatch.mergeTargets .empty targets).entries =
      targets.entries.map fun entry => (entry.1, DistinctList.empty.union entry.2) := gathered
  rw [same]
  simp only [DistinctList.empty_union]
  exact List.map_id' _

theorem apply_create (module : Option String) (declaration : Declaration) :
    (ModulePatch.create module).apply declaration = {
      module := some declaration.module
      limitModules := declaration.overrides.limitModules
      addReads := declaration.overrides.addReads
      addExports := declaration.overrides.addExports
      addOpens := declaration.overrides.addOpens
      addTestModules := declaration.overrides.addTestModules
      readTestModules := declaration.overrides.readTestModules
      exportsToTest := declaration.overrides.exportsToTest } := by
  unfold ModulePatch.apply ModulePatch.create
  simp only [DistinctList.empty_union, mergeTargets_empty]

private theorem exportTargets_untaken {patch : ModulePatch} (untaken : patch.testModules = .empty)
    (package : String) (targets : NameSet) : patch.exportTargets package targets = targets := by
  unfold ModulePatch.exportTargets
  rw [untaken]
  exact ite_self _

/-- The options of a patch file, read, say under each keyword what the file says. -/
private theorem clausesOf_declared {declaration : Declaration} (proper : declaration.IsProper)
    (plain : ∀ directive ∈ declaration.directives, testModulePath ∉ directive.names)
    (module : Option String) :
    clausesOf ((({} : RootModules).addAll declaration.overrides.addModules).offers ++
        ((ModulePatch.create module).apply declaration).offers true) =
      writtenKeywords.flatMap (clausesUnder declaration) := by
  have said := Overrides.areWellNamed_of_proper proper
  obtain ⟨exported, opened⟩ := Overrides.haveTargets_of_proper proper plain
  have nothing : [] ⊆ compilerWords := List.nil_subset _
  have exports : AreTargets compilerWords declaration.overrides.addExports :=
    said.addExports.mono (by decide)
  have opens : AreTargets compilerWords declaration.overrides.addOpens :=
    said.addOpens.mono nothing
  have roots : (({} : RootModules).addAll declaration.overrides.addModules).offers =
      offer "add-modules" none declaration.overrides.addModules :=
    congrArg (offer "add-modules" none) (DistinctList.empty_union _)
  rw [apply_create, roots]
  unfold ModulePatch.offers ModulePatch.namedOffers
  simp only [exportTargets_untaken, if_true, clausesOf_append,
    clausesOf_offer (said.addModules.mono (by decide)),
    clausesOf_offer (said.limitModules.mono nothing),
    clausesOf_module (said.addReads.mono nothing) proper.1,
    clausesOf_packages proper.1 exports exported, clausesOf_packages proper.1 opens opened]
  simp only [writtenKeywords, List.flatMap_cons, List.flatMap_nil, List.append_nil,
    List.append_assoc, clausesUnder]

private theorem module_of_mem_clausesUnder {declaration : Declaration} {keyword : Keyword}
    (qualified : keyword = .addReads ∨ keyword = .addExports ∨ keyword = .addOpens)
    {clause : Clause} (present : clause ∈ clausesUnder declaration keyword) :
    clause.module = some declaration.module := by
  have targets : ∀ {option targets},
      clause ∈ Clause.ofTargets option declaration.module targets →
      clause.module = some declaration.module := by
    intro option targets present
    obtain ⟨entry, _, rfl⟩ := List.mem_map.mp present
    rfl
  rcases qualified with rfl | rfl | rfl
  · unfold clausesUnder Clause.ofNames at present
    simp only at present
    split at present
    · cases present
    · rw [List.mem_singleton.mp present]
  · exact targets present
  · exact targets present

/-- Writing a patch file that does not mention the test dependencies loses nothing.  Read back,
the options list the names, the packages and the targets of the file in its order, with the
declared module in front of those that are for a module.  There is no option for a keyword only
if there is nothing to change under it. -/
theorem changes_of_load {text : String} {declaration : Declaration}
    (read : Declaration.ofText text = .ok declaration)
    (plain : Token.word testModulePath ∉ (Tokens.ofText text).bare) (module : Option String) :
    let fresh := ({} : CompilationUnit).create module
    ∃ unit, fresh.2.load fresh.1.index text = .ok unit ∧
      let pairs := (CompilerOptions.addAll {} (unit.write true fresh.1).1).pairs
      let clauses := pairs.map Clause.ofPair
      Changes.ofClauses clauses = .ofOverrides declaration.overrides ∧
      (∀ keyword, keyword = .addReads ∨ keyword = .addExports ∨ keyword = .addOpens →
        ∀ clause ∈ Clause.under keyword clauses, clause.module = some declaration.module) ∧
      ∀ keyword, (∃ value, ("--" ++ Keyword.word keyword, value) ∈ pairs) ↔
        (Changes.ofOverrides declaration.overrides).mentions keyword = true := by
  intro fresh
  obtain ⟨_, proper, same⟩ := Declaration.ofText_eq_ok.mp read
  have unmentioned : ∀ directive ∈ declaration.directives,
      testModulePath ∉ directive.names := by
    intro directive present listed
    rw [same] at plain
    exact plain (Declaration.word_mem_tokens present listed)
  let unit := fresh.2.apply fresh.1.index declaration
  have loaded : fresh.2.load fresh.1.index text = .ok unit := by
    unfold CompilationUnit.load
    rw [read]
    rfl
  refine ⟨unit, loaded, ?_⟩
  intro pairs clauses
  have said : clauses = writtenKeywords.flatMap (clausesUnder declaration) := by
    rw [← clausesOf_declared proper unmentioned module]
    unfold clausesOf
    exact congrArg (List.map Clause.ofPair) (CompilerOptions.pairs_addAll {} _)
  have changes : Changes.ofClauses clauses = .ofOverrides declaration.overrides := by
    rw [said, changes_clausesUnder]
  refine ⟨changes, ?_, ?_⟩
  · intro keyword qualified clause present
    rw [said, under_clausesUnder] at present
    exact module_of_mem_clausesUnder qualified present
  · intro keyword
    rw [← changes, Changes.mentions_ofClauses]

/-- A package whose exports are given twice, with another one between them. -/
def repeatedText : String :=
  "patch-module m \x7b add-exports p to b, a; add-reads d; /* and */ add-exports q to c; " ++
    "add-exports p to a, e; \x7d"

private theorem read_repeatedText :
    Declaration.ofText repeatedText = .ok ⟨"m", [.addExports "p" ["b", "a"], .addReads ["d"],
      .addExports "q" ["c"], .addExports "p" ["a", "e"]]⟩ :=
  ok_of_toOption (by decide +kernel)

theorem changes_of_load_repeated :
    let fresh := ({} : CompilationUnit).create none
    ∃ unit, fresh.2.load fresh.1.index repeatedText = .ok unit ∧
      Changes.ofClauses ((CompilerOptions.addAll {} (unit.write true fresh.1).1).pairs.map
        Clause.ofPair) = {
          addModules := []
          limitModules := []
          addReads := ["d"]
          addExports := [("p", ["b", "a", "e"]), ("q", ["c"])]
          addOpens := [] } := by
  intro fresh
  have plain : Token.word testModulePath ∉ (Tokens.ofText repeatedText).bare := by
    rw [(Declaration.ofText_eq_ok.mp read_repeatedText).2.2]
    decide
  obtain ⟨unit, loaded, changes, _⟩ := changes_of_load read_repeatedText plain none
  exact ⟨unit, loaded, changes⟩

end ModulePlan
