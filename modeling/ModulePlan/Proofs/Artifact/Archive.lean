/-
Archives and the order of their entries.

What module an archive is depends on which entries it has and not on their order.  Of the
versioned declarations the one for the greatest release is taken and, for one release, the one that
comes last by name, so that it is the greatest element of a set.
-/

import Mathlib.Data.List.Nodup
import Mathlib.Data.List.TakeWhile
import Mathlib.Data.Nat.Digits.Defs
import Mathlib.Data.Prod.Lex
import Mathlib.Data.String.Basic
import Mathlib.Order.Bounds.Basic
import ModulePlan.Artifact.Description
import ModulePlan.Proofs.KeyedList
import ModulePlan.Proofs.Report
import ModulePlan.Proofs.Text.Fields

namespace ModulePlan.Artifact

/-! ### Names of versioned declarations -/

/-- A number as it is written in some script, with any zeros in front. -/
structure IsNumeral (digits : List Char) : Prop where
  some : digits ≠ []
  all : ∀ c ∈ digits, (Text.digitValue? c).isSome = true

def numberOf (digits : List Char) : Nat :=
  Nat.ofDigits 10 (digits.reverse.map fun c => (Text.digitValue? c).getD 0)

/-- The entry that declares the module for the release with these digits. -/
def versionedDeclaration (digits : List Char) : String :=
  "META-INF/versions/" ++ String.ofList digits ++ "/" ++ compiledDeclaration

/-- Among these entries is a declaration for the release with these digits. -/
structure HasRelease (names : List String) (digits : List Char) : Prop where
  numeral : IsNumeral digits
  present : versionedDeclaration digits ∈ names

theorem toList_versionedDeclaration (digits : List Char) :
    (versionedDeclaration digits).toList =
      "META-INF/versions/".toList ++ (digits ++ '/' :: compiledDeclaration.toList) := by
  unfold versionedDeclaration
  rw [String.toList_append, String.toList_append, String.toList_append,
    @String.toList_ofList digits, List.append_assoc, List.append_assoc]
  rfl

theorem decimalNat?_of_numeral {digits : List Char} (numeral : IsNumeral digits) :
    Text.decimalNat? digits = some (numberOf digits) := by
  -- From behind, as the last digit counts least.
  have summed : ∀ digits : List Char, (∀ c ∈ digits, (Text.digitValue? c).isSome = true) →
      digits.foldl (fun total c => do return 10 * (← total) + (← Text.digitValue? c)) (some 0) =
        some (numberOf digits) := by
    intro digits all
    induction digits using List.reverseRecOn with
    | nil => rfl
    | append_singleton digits c ih =>
        obtain ⟨earlier, last⟩ := List.forall_mem_append.mp all
        obtain ⟨value, known⟩ := Option.isSome_iff_exists.mp (last c List.mem_cons_self)
        rw [List.foldl_append, ih earlier, List.foldl_cons, List.foldl_nil, known]
        unfold numberOf
        rw [List.reverse_append, List.reverse_singleton, List.singleton_append, List.map_cons,
          Nat.ofDigits_cons, known, Nat.add_comm]
        rfl
  unfold Text.decimalNat?
  cases digits with
  | nil => exact absurd rfl numeral.some
  | cons c rest => exact summed (c :: rest) numeral.all

/-- A line feed aside, an entry is for a release exactly if it has the name for it. -/
theorem releaseDigits?_eq_some_iff {name : String} (single : '\n' ∉ name.toList)
    {digits : List Char} :
    releaseDigits? name.toList = some digits ↔
      IsNumeral digits ∧ name = versionedDeclaration digits := by
  rw [← String.toList_inj, toList_versionedDeclaration]
  generalize name.toList = entry at single
  unfold releaseDigits?
  constructor
  · intro read
    simp only at read
    split at read
    · rename_i fits
      cases read
      simp only [Bool.and_eq_true, Bool.or_eq_true, decide_eq_true_eq,
        List.isPrefixOf_iff_prefix] at fits
      obtain ⟨⟨⟨tail, rfl⟩, some⟩, ending⟩ := fits
      rw [List.drop_left] at some ending ⊢
      rw [← List.drop_drop, List.drop_left] at ending
      have split := Text.takeWhile_append_drop (fun c => (Text.digitValue? c).isSome) tail
      have all : ∀ c ∈ tail.takeWhile fun c => (Text.digitValue? c).isSome,
          (Text.digitValue? c).isSome = true :=
        fun _ => List.mem_takeWhile_imp (p := fun c => (Text.digitValue? c).isSome)
      refine ⟨⟨some, all⟩, ?_⟩
      rcases ending with plain | further
      · rw [← plain, split]
      · rw [further] at split
        refine absurd (List.mem_append_right _ ?_) single
        rw [← split]
        simp
    · cases read
  · intro given
    rcases given with ⟨numeral, rfl⟩
    have digits_eq : (digits ++ '/' :: compiledDeclaration.toList).takeWhile
        (fun c => (Text.digitValue? c).isSome) = digits :=
      Text.takeWhile_run numeral.all (by decide) _
    simp only
    rw [List.drop_left, digits_eq, ← List.drop_drop, List.drop_left, List.drop_left]
    have front : ("META-INF/versions/".toList.isPrefixOf
        ("META-INF/versions/".toList ++ (digits ++ '/' :: compiledDeclaration.toList))) = true :=
      List.isPrefixOf_iff_prefix.mpr (List.prefix_append _ _)
    rw [front, decide_eq_true numeral.some]
    rfl

/-! ### The newest declaration -/

/-- The versioned declarations among some entries, by release and then by name. -/
def candidates (names : List String) : Set (Nat ×ₗ String) :=
  {candidate | ∃ digits, HasRelease names digits ∧
    candidate = toLex (numberOf digits, versionedDeclaration digits)}

/-- The greatest of some candidates, or nothing where there is none. -/
def IsNewest (among : Set (Nat ×ₗ String)) : Option (Nat × String) → Prop
  | none => among = ∅
  | some newest => IsGreatest among (toLex newest)

theorem isNewest_unique {among : Set (Nat ×ₗ String)} {first second : Option (Nat × String)}
    (newest : IsNewest among first) (other : IsNewest among second) : first = second := by
  cases first with
  | none =>
      cases second with
      | none => rfl
      | some candidate =>
          obtain ⟨present, _⟩ := other
          rw [show among = ∅ from newest] at present
          cases present
  | some candidate =>
      cases second with
      | none =>
          obtain ⟨present, _⟩ := newest
          rw [show among = ∅ from other] at present
          cases present
      | some another => exact congrArg some (toLex_inj.mp (newest.unique other))

theorem releaseLt_iff {left right : Nat × String} :
    releaseLt left right = true ↔ toLex left < toLex right := by
  unfold releaseLt
  rw [Prod.Lex.lt_iff, Bool.or_eq_true, Bool.and_eq_true, decide_eq_true_eq, decide_eq_true_eq,
    decide_eq_true_eq]
  rfl

theorem isNewest_insert {among : Set (Nat ×ₗ String)} {latest : Option (Nat × String)}
    (candidate : Nat × String) : IsNewest among latest →
      IsNewest (insert (toLex candidate) among)
        (some (match latest with
          | none => candidate
          | some other => if releaseLt other candidate then candidate else other)) := by
  intro newest
  cases latest with
  | none =>
      rw [show among = ∅ from newest, insert_empty_eq]
      exact isGreatest_singleton
  | some other =>
      have greatest := IsGreatest.insert (toLex candidate) newest
      by_cases later : toLex other < toLex candidate
      · simp only [releaseLt_iff.mpr later, if_true]
        rwa [max_eq_left later.le] at greatest
      · simp only [Bool.eq_false_iff.mpr (releaseLt_iff.not.mpr later), Bool.false_eq_true,
          if_false]
        rwa [max_eq_right (not_lt.mp later)] at greatest

theorem candidates_nil : candidates [] = ∅ := by
  apply Set.eq_empty_of_forall_notMem
  rintro _ ⟨digits, release, _⟩
  cases release.present

theorem candidates_cons_of_none {name : String} {names : List String}
    (single : '\n' ∉ name.toList) (none : releaseDigits? name.toList = none) :
    candidates (name :: names) = candidates names := by
  ext candidate
  constructor
  · rintro ⟨digits, release, rfl⟩
    rcases List.mem_cons.mp release.present with same | later
    · rw [(releaseDigits?_eq_some_iff single).mpr ⟨release.numeral, same.symm⟩] at none
      cases none
    · exact ⟨digits, ⟨release.numeral, later⟩, rfl⟩
  · rintro ⟨digits, release, rfl⟩
    exact ⟨digits, ⟨release.numeral, List.mem_cons_of_mem name release.present⟩, rfl⟩

theorem candidates_cons_of_some {name : String} {names : List String} {digits : List Char}
    (single : '\n' ∉ name.toList) (read : releaseDigits? name.toList = some digits) :
    candidates (name :: names) = insert (toLex (numberOf digits, name)) (candidates names) := by
  obtain ⟨numeral, rfl⟩ := (releaseDigits?_eq_some_iff single).mp read
  ext candidate
  constructor
  · rintro ⟨other, release, rfl⟩
    rcases List.mem_cons.mp release.present with same | later
    · rw [← same, (releaseDigits?_eq_some_iff (same ▸ single)).mpr ⟨release.numeral, rfl⟩] at read
      cases read
      exact Set.mem_insert _ _
    · exact Set.mem_insert_of_mem _ ⟨other, ⟨release.numeral, later⟩, rfl⟩
  · rintro (rfl | ⟨other, release, rfl⟩)
    · exact ⟨digits, ⟨numeral, List.mem_cons_self⟩, rfl⟩
    · exact ⟨other, ⟨release.numeral, List.mem_cons_of_mem _ release.present⟩, rfl⟩

/-- No number is too long to be read. -/
def AreShort (names : List String) : Prop :=
  ∀ digits, HasRelease names digits → digits.length ≤ 4300

/-- What is chosen from some entries on is the greatest of them and of those before. -/
theorem newestDeclaration_eq {names : List String} (single : ∀ name ∈ names, '\n' ∉ name.toList)
    (short : AreShort names) {among : Set (Nat ×ₗ String)} {latest : Option (Nat × String)}
    (newest : IsNewest among latest) :
    ∃ found, newestDeclaration latest names = .ok found ∧
      IsNewest (among ∪ candidates names) found := by
  induction names generalizing among latest with
  | nil =>
      refine ⟨latest, rfl, ?_⟩
      rwa [candidates_nil, Set.union_empty]
  | cons name names ih =>
      obtain ⟨here, later⟩ := List.forall_mem_cons.mp single
      have shorter : AreShort names := fun digits release =>
        short digits ⟨release.numeral, List.mem_cons_of_mem name release.present⟩
      rw [newestDeclaration]
      cases read : releaseDigits? name.toList with
      | none =>
          rw [candidates_cons_of_none here read]
          exact ih later shorter newest
      | some digits =>
          obtain ⟨numeral, same⟩ := (releaseDigits?_eq_some_iff here).mp read
          have fits := short digits ⟨numeral, same ▸ List.mem_cons_self⟩
          simp only [if_neg (Nat.not_lt.mpr fits), decimalNat?_of_numeral numeral, Option.getD_some]
          rw [candidates_cons_of_some here read, Set.union_insert, ← Set.insert_union]
          exact ih later shorter (isNewest_insert (numberOf digits, name) newest)

theorem newestDeclaration_none_eq {names : List String}
    (single : ∀ name ∈ names, '\n' ∉ name.toList) (short : AreShort names) :
    ∃ found, newestDeclaration none names = .ok found ∧ IsNewest (candidates names) found := by
  have nothing : IsNewest ∅ none := rfl
  have chosen := newestDeclaration_eq single short nothing
  rwa [Set.empty_union] at chosen

/-- The entry that declares an archive's module: the one at the root or, without it, that for the
greatest release. -/
inductive IsDeclaration (names : List String) : Option String → Prop
  | root (present : compiledDeclaration ∈ names) : IsDeclaration names (some compiledDeclaration)
  | newest {digits : List Char} (noRoot : compiledDeclaration ∉ names)
      (release : HasRelease names digits)
      (greatest : ∀ other, HasRelease names other → numberOf other ≤ numberOf digits) :
      IsDeclaration names (some (versionedDeclaration digits))
  | none (noRoot : compiledDeclaration ∉ names) (noRelease : ∀ digits, ¬HasRelease names digits) :
      IsDeclaration names none

theorem declarationEntry_eq {names : List String} (single : ∀ name ∈ names, '\n' ∉ name.toList)
    (short : compiledDeclaration ∉ names → AreShort names) :
    ∃ entry, declarationEntry names = .ok entry ∧ IsDeclaration names entry := by
  unfold declarationEntry
  by_cases root : compiledDeclaration ∈ names
  · rw [if_pos root]
    exact ⟨_, rfl, .root root⟩
  · obtain ⟨found, read, newest⟩ := newestDeclaration_none_eq single (short root)
    rw [if_neg root, read]
    cases found with
    | none =>
        refine ⟨none, rfl, .none root ?_⟩
        intro digits release
        have present : toLex (numberOf digits, versionedDeclaration digits) ∈ candidates names :=
          ⟨digits, release, rfl⟩
        rw [show candidates names = ∅ from newest] at present
        cases present
    | some candidate =>
        obtain ⟨⟨digits, release, same⟩, greatest⟩ := newest
        rw [toLex_inj.mp same] at greatest ⊢
        refine ⟨_, rfl, .newest root release ?_⟩
        intro other another
        rcases Prod.Lex.le_iff.mp (greatest ⟨other, another, rfl⟩) with below | level
        · exact below.le
        · exact level.1.le

theorem candidates_congr {names others : List String}
    (same : ∀ name, name ∈ others ↔ name ∈ names) : candidates others = candidates names := by
  ext candidate
  constructor
  · rintro ⟨digits, release, rfl⟩
    exact ⟨digits, ⟨release.numeral, (same _).mp release.present⟩, rfl⟩
  · rintro ⟨digits, release, rfl⟩
    exact ⟨digits, ⟨release.numeral, (same _).mpr release.present⟩, rfl⟩

theorem declarationEntry_congr {names others : List String}
    (single : ∀ name ∈ names, '\n' ∉ name.toList)
    (short : compiledDeclaration ∉ names → AreShort names)
    (same : ∀ name, name ∈ others ↔ name ∈ names) :
    declarationEntry others = declarationEntry names := by
  unfold declarationEntry
  by_cases root : compiledDeclaration ∈ names
  · rw [if_pos root, if_pos ((same _).mpr root)]
  · have otherSingle : ∀ name ∈ others, '\n' ∉ name.toList :=
      fun name present => single name ((same name).mp present)
    have otherShort : AreShort others := fun digits release =>
      short root digits ⟨release.numeral, (same _).mp release.present⟩
    obtain ⟨found, read, newest⟩ := newestDeclaration_none_eq single (short root)
    obtain ⟨another, otherRead, otherNewest⟩ := newestDeclaration_none_eq otherSingle otherShort
    rw [candidates_congr same] at otherNewest
    rw [if_neg root, if_neg ((same _).not.mpr root), read, otherRead,
      isNewest_unique otherNewest newest]

/-! ### Manifests -/

variable {entries : List (String × List UInt8)}

/-- What an archive without a declaration is, by its manifest. -/
inductive IsAutomatic (entries : List (String × List UInt8)) : Option ModuleDescriptor → Prop
  | named {data : List UInt8} {name : String} (present : (manifestEntry, data) ∈ entries)
      (read : Manifest.attribute? (Text.Utf8.decodeLossy data) automaticNameAttribute = some name)
      (visible : name ≠ "") :
      IsAutomatic entries (some { name := name, requires := [], automatic := true })
  | unnamed (empty : ∀ data name, (manifestEntry, data) ∈ entries →
      Manifest.attribute? (Text.Utf8.decodeLossy data) automaticNameAttribute = some name →
        name = "") :
      IsAutomatic entries none

theorem lookup_reverse_iff (distinct : (entries.map Prod.fst).Nodup) {name : String}
    {data : List UInt8} : entries.reverse.lookup name = some data ↔ (name, data) ∈ entries := by
  constructor
  · intro found
    obtain ⟨before, after, split, _⟩ := List.lookup_eq_some_iff.mp found
    rw [← List.mem_reverse, split]
    exact List.mem_append_right _ List.mem_cons_self
  · intro present
    have reversed : (entries.reverse.map Prod.fst).Nodup := by
      rw [List.map_reverse]
      exact List.nodup_reverse.mpr distinct
    exact KeyedList.lookup_of_mem reversed (List.mem_reverse.mpr present)

theorem manifest?_congr {reordered : List (String × List UInt8)}
    (distinct : (entries.map Prod.fst).Nodup) (permuted : reordered.Perm entries) :
    manifest? reordered = manifest? entries := by
  have otherDistinct : (reordered.map Prod.fst).Nodup :=
    (permuted.map Prod.fst).nodup_iff.mpr distinct
  unfold manifest?
  congr 1
  apply Option.ext
  intro data
  rw [lookup_reverse_iff distinct, lookup_reverse_iff otherDistinct, permuted.mem_iff]

/-! ### Archives -/

variable {host : Host} {path : FilePath}

theorem describe_of_archive (standing : host.node? path = .ok (some (.file (.archive entries)))) :
    describe host path = describeArchive host path entries := by
  unfold describe
  rw [standing]
  rfl

theorem targets_describeClass (host : Host) (target : String) :
    (describeClass host target).trace.targets = host.javap.toList.map fun _ => target := by
  unfold describeClass list
  cases host.javap with
  | none => rfl
  | some javap =>
      simp only
      by_cases failed : (javap target).status ≠ 0
      · rw [if_pos failed]
        rfl
      · rw [if_neg failed, Report.trace_bind_of_ok rfl]
        cases Listing.descriptor? (javap target).output with
        | none => rfl
        | some descriptor => rfl

/-- What describing an archive comes to: one run of javap on the entry that declares its module, or
what its manifest says without any run. -/
inductive IsOutcome (host : Host) (path : FilePath) (entries : List (String × List UInt8))
    (report : Report (Option ModuleDescriptor)) : Prop
  | listed {entry : String} (declared : IsDeclaration (entries.map Prod.fst) (some entry))
      (result : report.result =
        (describeClass host (entryTarget host path entry)).result.map some)
      (targets : report.trace.targets =
        host.javap.toList.map fun _ => entryTarget host path entry)
  | unlisted {found : Option ModuleDescriptor}
      (undeclared : IsDeclaration (entries.map Prod.fst) none)
      (automatic : IsAutomatic entries found)
      (result : report.result = .ok found) (targets : report.trace.targets = [])

theorem isOutcome_of_undeclared (distinct : (entries.map Prod.fst).Nodup)
    (read : declarationEntry (entries.map Prod.fst) = .ok none)
    (undeclared : IsDeclaration (entries.map Prod.fst) none) :
    IsOutcome host path entries (describeArchive host path entries) := by
  have told : describeArchive host path entries =
      ((manifest? entries).bind (Manifest.attribute? · automaticNameAttribute)).elim
        (return none) fun name =>
          if name = "" then return none
          else
            Report.debug (path.name ++ " is automatic module " ++ name) >>= fun _ =>
              return some { name := name, automatic := true } := by
    unfold describeArchive
    rw [read]
    cases (manifest? entries).bind (Manifest.attribute? · automaticNameAttribute) <;> rfl
  rw [told]
  have held : ∀ data, (manifestEntry, data) ∈ entries →
      manifest? entries = some (Text.Utf8.decodeLossy data) := by
    intro data present
    unfold manifest?
    rw [(lookup_reverse_iff distinct).mpr present]
    rfl
  cases known : (manifest? entries).bind (Manifest.attribute? · automaticNameAttribute) with
  | none =>
      refine .unlisted undeclared (.unnamed ?_) rfl rfl
      intro data name present named
      rw [held data present, Option.bind_some, named] at known
      cases known
  | some name =>
      rw [Option.elim_some]
      by_cases empty : name = ""
      · rw [if_pos empty]
        refine .unlisted undeclared (.unnamed ?_) rfl rfl
        intro data other present named
        rw [held data present, Option.bind_some, named] at known
        exact (Option.some.inj known).trans empty
      · rw [if_neg empty]
        obtain ⟨text, found, named⟩ := Option.bind_eq_some_iff.mp known
        obtain ⟨data, kept, rfl⟩ := Option.map_eq_some_iff.mp found
        exact .unlisted undeclared
          (.named ((lookup_reverse_iff distinct).mp kept) named empty) rfl rfl

theorem isOutcome_of_declared {entry : String}
    (read : declarationEntry (entries.map Prod.fst) = .ok (some entry))
    (declared : IsDeclaration (entries.map Prod.fst) (some entry)) :
    IsOutcome host path entries (describeArchive host path entries) := by
  have told : describeArchive host path entries =
      describeClass host (entryTarget host path entry) >>= fun found => return some found := by
    unfold describeArchive
    rw [read]
    rfl
  rw [told]
  refine .listed declared ?_ ?_
  · rw [Report.result_bind]
    cases (describeClass host (entryTarget host path entry)).result with
    | error fault => rfl
    | ok descriptor => rfl
  · rw [Report.trace_bind_pure, targets_describeClass]

/-- An archive with distinct entries is described by one run of javap on the entry that declares
its module or, without such an entry, by its manifest.  In whatever order the entries are, the
description is the same. -/
theorem describe_archive (standing : host.node? path = .ok (some (.file (.archive entries))))
    (distinct : (entries.map Prod.fst).Nodup)
    (single : ∀ name ∈ entries.map Prod.fst, '\n' ∉ name.toList)
    (short : compiledDeclaration ∉ entries.map Prod.fst → AreShort (entries.map Prod.fst)) :
    IsOutcome host path entries (describe host path) ∧
      ∀ (other : Host) (reordered : List (String × List UInt8)),
        other.directory = host.directory → other.javap = host.javap →
        other.node? path = .ok (some (.file (.archive reordered))) → reordered.Perm entries →
        describe other path = describe host path := by
  obtain ⟨entry, read, declared⟩ := declarationEntry_eq single short
  constructor
  · rw [describe_of_archive standing]
    cases entry with
    | none => exact isOutcome_of_undeclared distinct read declared
    | some entry => exact isOutcome_of_declared read declared
  · intro other reordered sameDirectory sameJavap otherStanding permuted
    have sameEntry := declarationEntry_congr single short
      (fun name => (permuted.map Prod.fst).mem_iff)
    have sameClass : ∀ target, describeClass other target = describeClass host target := by
      intro target
      unfold describeClass list
      rw [sameJavap]
    rw [describe_of_archive standing, describe_of_archive otherStanding]
    unfold describeArchive entryTarget
    rw [sameEntry, manifest?_congr distinct permuted, sameDirectory]
    simp only [sameClass]

/-- A manifest that names an automatic module, and declarations for two releases among other
entries.  The number of the greater release begins with zeros. -/
def releaseEntries : List (String × List UInt8) :=
  [("META-INF/MANIFEST.MF", "Automatic-Module-Name: other\n".toUTF8.toList),
    ("META-INF/versions/0011/module-info.class", []), ("META-INF/versions/99/module-info", []),
    ("META-INF/versions/9/module-info.class", []), ("x/META-INF/versions/99/module-info.class", [])]

/-- The archive `lib.jar` and a javap that lists every declaration alike. -/
def archiveHost (entries : List (String × List UInt8)) : Host where
  files := FileTree.put {} ["lib.jar"] (.file (.archive entries))
  javap := some fun _ => ⟨0, "module m \x7b\n\x7d\n", ""⟩

theorem describe_archive_releases :
    let path := FilePath.ofText "lib.jar"
    let names := releaseEntries.map Prod.fst
    (archiveHost releaseEntries).node? path = .ok (some (.file (.archive releaseEntries))) ∧
      names.Nodup ∧ (∀ name ∈ names, '\n' ∉ name.toList) ∧ AreShort names ∧
      IsOutcome (archiveHost releaseEntries) path releaseEntries
        (describe (archiveHost releaseEntries) path) ∧
      describe (archiveHost releaseEntries.reverse) path =
        describe (archiveHost releaseEntries) path ∧
      (describe (archiveHost releaseEntries) path).trace.targets =
        ["jar:file:///lib.jar!/META-INF/versions/0011/module-info.class"] := by
  intro path names
  have standing : (archiveHost releaseEntries).node? path =
      .ok (some (.file (.archive releaseEntries))) := ok_of_toOption (by decide +kernel)
  have otherStanding : (archiveHost releaseEntries.reverse).node? path =
      .ok (some (.file (.archive releaseEntries.reverse))) := ok_of_toOption (by decide +kernel)
  have distinct : names.Nodup := by decide
  have single : ∀ name ∈ names, '\n' ∉ name.toList := by decide
  have short : AreShort names := by
    intro digits release
    have bounded : ∀ name ∈ names, name.toList.length ≤ 4300 := by decide
    have fits := bounded _ release.present
    rw [toList_versionedDeclaration, List.length_append, List.length_append] at fits
    omega
  obtain ⟨outcome, same⟩ := describe_archive standing distinct single fun _ => short
  exact ⟨standing, distinct, single, short, outcome,
    same _ _ rfl rfl otherStanding (List.reverse_perm _), by decide +kernel⟩

end ModulePlan.Artifact
