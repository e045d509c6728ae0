/-
Default patch files that come into a host.

Each comes into the first root of a module that has no patch file.  Of that module its
declaration is found then, and of the other modules what was found before.
-/

import ModulePlan.Proofs.Host
import ModulePlan.Proofs.Patch.Default
import ModulePlan.Proofs.Plan.Members
import ModulePlan.Proofs.Text.Utf8

namespace ModulePlan.Plan

/-- A module, its first root and the place of the directory that the root leads to. -/
structure Site where
  module : String
  root : FilePath
  place : List String

def Site.content (site : Site) : Content :=
  .bytes (Text.Utf8.encode (Patch.defaultText site.module))

/-- Is a name that of one file, whatever directory it is looked up in? -/
def IsPlainFile (patchFile : String) : Prop :=
  FilePath.ofText patchFile = ⟨.relative, [patchFile]⟩ ∧ patchFile ≠ ".."

/-- A module with a valid name that has no patch file.  Its first root leads to a directory
that no other module has, and a patch file can be put there. -/
structure Site.Suits (host : Host) (patchFile : String)
    (modules : KeyedList String (DistinctList FilePath)) (site : Site) : Prop where
  valid : isValidName site.module = true
  undeclared : ∃ roots, modules.get? site.module = some roots ∧
    roots.toList.head? = some site.root ∧ patchFileOf? host patchFile roots.toList = .ok none
  leads : host.directoryAt? site.root = some site.place
  inside : host.files.at? site.place = some .directory
  alone : ∀ entry ∈ modules.entries, entry.1 ≠ site.module →
    ∀ root ∈ entry.2.toList, host.directoryAt? root ≠ some site.place
  nameable : Host.namingFault? (site.root.join patchFile) = none
  free : host.files.at? (site.place ++ [patchFile]) = none

def putDefaults (patchFile : String) (sites : List Site) (files : FileTree) : FileTree :=
  sites.foldl (fun files site => files.put (site.place ++ [patchFile]) (.file site.content)) files

/-- The host with a default patch file at each of the sites. -/
def withDefaults (host : Host) (patchFile : String) (sites : List Site) : Host :=
  { host with files := putDefaults patchFile sites host.files }

def defaultAt? (patchFile : String) (sites : List Site) (place : List String) :
    Option Content :=
  (sites.find? fun site => site.place ++ [patchFile] = place).map Site.content

section Sites

variable {host : Host} {patchFile : String}
  {modules : KeyedList String (DistinctList FilePath)} {sites : List Site}

/-! ### The file tree -/

private theorem site_of_defaultAt? {place : List String} {content : Content}
    (new : defaultAt? patchFile sites place = some content) :
    ∃ site ∈ sites, site.place ++ [patchFile] = place ∧ site.content = content := by
  unfold defaultAt? at new
  obtain ⟨site, found, same⟩ := Option.map_eq_some_iff.mp new
  have here : decide (site.place ++ [patchFile] = place) = true := by
    have holds := List.find?_some found
    exact holds
  exact ⟨site, List.mem_of_find?_eq_some found, of_decide_eq_true here, same⟩

private theorem module_eq_of_place_eq {left right : Site}
    (leftSuits : left.Suits host patchFile modules)
    (rightSuits : right.Suits host patchFile modules) (same : left.place = right.place) :
    left.module = right.module := by
  by_contra different
  obtain ⟨roots, listed, first, _⟩ := rightSuits.undeclared
  have entry := KeyedList.mem_entries_of_get? listed
  have other : right.module ≠ left.module := fun equal => different equal.symm
  have root := List.mem_of_head? first
  apply leftSuits.alone _ entry other right.root root
  rw [same]
  exact rightSuits.leads

private theorem defaultAt?_of_mem (suits : ∀ site ∈ sites, site.Suits host patchFile modules)
    {site : Site} (present : site ∈ sites) :
    defaultAt? patchFile sites (site.place ++ [patchFile]) = some site.content := by
  cases new : defaultAt? patchFile sites (site.place ++ [patchFile]) with
  | none =>
      unfold defaultAt? at new
      rw [Option.map_eq_none_iff, List.find?_eq_none] at new
      exact absurd (decide_eq_true rfl) (new site present)
  | some content =>
      obtain ⟨other, among, place, rfl⟩ := site_of_defaultAt? new
      have module := module_eq_of_place_eq (suits other among) (suits site present)
        (List.append_cancel_right place)
      unfold Site.content
      rw [module]

/-- The files that come in are all that is gained. -/
theorem gains_putDefaults (suits : ∀ site ∈ sites, site.Suits host patchFile modules) :
    host.files.Gains (putDefaults patchFile sites host.files) (defaultAt? patchFile sites) where
  absent := by
    intro place content new
    obtain ⟨site, present, rfl, _⟩ := site_of_defaultAt? new
    exact (suits site present).free
  stands := by
    intro place
    induction sites using List.reverseRecOn generalizing place with
    | nil => rfl
    | append_singleton earlier site ih =>
        have suitsEarlier : ∀ other ∈ earlier, other.Suits host patchFile modules :=
          fun other present => suits other (List.mem_append_left _ present)
        have suitsSite := suits site (List.mem_append_right _ List.mem_cons_self)
        have before := ih suitsEarlier
        -- No patch file comes in where the directory of the site stands.
        have inside : (putDefaults patchFile earlier host.files).at? site.place =
            some .directory := by
          rw [before]
          cases new : defaultAt? patchFile earlier site.place with
          | none => exact suitsSite.inside
          | some content =>
              obtain ⟨other, present, place, _⟩ := site_of_defaultAt? new
              have free := (suitsEarlier other present).free
              rw [place, suitsSite.inside] at free
              cases free
        have put : putDefaults patchFile (earlier ++ [site]) host.files =
            (putDefaults patchFile earlier host.files).put (site.place ++ [patchFile])
              (.file site.content) := by
          unfold putDefaults
          rw [List.foldl_append]
          rfl
        rw [put, FileTree.at?_put _ inside]
        by_cases here : place = site.place ++ [patchFile]
        · subst here
          rw [if_pos rfl, defaultAt?_of_mem suits (List.mem_append_right _ List.mem_cons_self)]
        · have elsewhere : defaultAt? patchFile (earlier ++ [site]) place =
              defaultAt? patchFile earlier place := by
            unfold defaultAt?
            rw [List.find?_append, List.find?_singleton,
              if_neg fun equal => here (of_decide_eq_true equal).symm, Option.or_none]
          rw [if_neg here, before, elsewhere]

/-! ### Patch files -/

private theorem join_of_plain (plain : IsPlainFile patchFile) (root : FilePath) :
    root.join patchFile = ⟨root.root, root.names ++ [patchFile]⟩ := by
  unfold FilePath.join FilePath.append
  rw [plain.1]

private theorem directory_of_find {name : String} (plain : IsPlainFile name) {files : FileTree}
    {root : FilePath} {place : List String} {content : Content}
    (found : files.find host.directory (root.join name) = .ok (place, .file content)) :
    ∃ above, files.walk (host.start root) root.names = .ok (above, .directory) ∧
      place = above ++ [name] := by
  rw [join_of_plain plain] at found
  unfold FileTree.find at found
  split at found
  · cases found
  · rw [FileTree.walk_concat _ _ _ plain.2] at found
    split at found
    · cases found
    · cases found
    · rename_i above walked
      split at found
      · cases found
      · split at found
        · cases found
        · cases found
          exact ⟨above, walked, rfl⟩

/-- A path leads to a patch file that comes in only from the directory of a site. -/
theorem site_of_leadsToFresh (suits : ∀ site ∈ sites, site.Suits host patchFile modules)
    {name : String} (plain : IsPlainFile name) {root : FilePath} {content : Content}
    (leads : host.LeadsToFresh (putDefaults patchFile sites host.files)
      (defaultAt? patchFile sites) (root.join name) content) :
    name = patchFile ∧ ∃ site ∈ sites, host.directoryAt? root = some site.place := by
  have gains := gains_putDefaults suits
  obtain ⟨place, new, found⟩ := leads
  obtain ⟨above, walked, rfl⟩ := directory_of_find plain found
  obtain ⟨site, present, here, _⟩ := site_of_defaultAt? new
  obtain ⟨inside, last⟩ := List.append_inj' here rfl
  refine ⟨(List.head_eq_of_cons_eq last).symm, site, present, ?_⟩
  rw [inside]
  exact Host.directoryAt?_eq_some.mpr (gains.walk_directory walked)

private theorem isFile_of_patchFileOf? {roots : List FilePath} {path : FilePath}
    (sought : patchFileOf? host patchFile roots = .ok (some path)) :
    host.isFile path = .ok true := by
  induction roots with
  | nil => cases sought
  | cons root rest ih =>
      unfold patchFileOf? at sought
      obtain ⟨there, file, sought⟩ := exceptBind_eq_ok.mp sought
      cases there with
      | false => exact ih sought
      | true =>
          cases sought
          exact file

private theorem patchFileOf?_elsewhere (plain : IsPlainFile patchFile)
    (suits : ∀ site ∈ sites, site.Suits host patchFile modules) {roots : List FilePath}
    (elsewhere : ∀ root ∈ roots, ∀ site ∈ sites, host.directoryAt? root ≠ some site.place) :
    patchFileOf? (withDefaults host patchFile sites) patchFile roots =
      patchFileOf? host patchFile roots := by
  induction roots with
  | nil => rfl
  | cons root rest ih =>
      obtain ⟨here, later⟩ := List.forall_mem_cons.mp elsewhere
      have same : (withDefaults host patchFile sites).isFile (root.join patchFile) =
          host.isFile (root.join patchFile) := by
        rcases Host.isFile_gains (gains_putDefaults suits) (root.join patchFile) with
          same | ⟨_, content, leads, _⟩
        · exact same
        · obtain ⟨_, site, present, led⟩ := site_of_leadsToFresh suits plain leads
          exact absurd led (here site present)
      unfold patchFileOf?
      rw [same, ih later]

theorem memberOf_elsewhere (plain : IsPlainFile patchFile)
    (suits : ∀ site ∈ sites, site.Suits host patchFile modules) (name : String)
    {roots : List FilePath}
    (elsewhere : ∀ root ∈ roots, ∀ site ∈ sites, host.directoryAt? root ≠ some site.place) :
    memberOf (withDefaults host patchFile sites) patchFile name roots =
      memberOf host patchFile name roots := by
  have same := patchFileOf?_elsewhere plain suits elsewhere
  unfold memberOf
  rw [same]
  cases sought : patchFileOf? host patchFile roots with
  | error fault => rfl
  | ok found =>
      cases found with
      | none => rfl
      | some path =>
          have read : (withDefaults host patchFile sites).readLines path = host.readLines path :=
            Host.readLines_gains (gains_putDefaults suits) (isFile_of_patchFileOf? sought)
          simp only [exceptBind_ok]
          unfold declarationAt
          rw [read]

private theorem isFile_of_none {roots : List FilePath} {root : FilePath}
    (first : roots.head? = some root) (sought : patchFileOf? host patchFile roots = .ok none) :
    host.isFile (root.join patchFile) = .ok false := by
  cases roots with
  | nil => cases first
  | cons other rest =>
      cases first
      unfold patchFileOf? at sought
      obtain ⟨there, file, sought⟩ := exceptBind_eq_ok.mp sought
      cases there with
      | false => exact file
      | true => cases sought

private theorem find_default (plain : IsPlainFile patchFile)
    (suits : ∀ site ∈ sites, site.Suits host patchFile modules) {site : Site}
    (present : site ∈ sites) (missing : host.isFile (site.root.join patchFile) = .ok false) :
    (putDefaults patchFile sites host.files).find host.directory (site.root.join patchFile) =
      .ok (site.place ++ [patchFile], .file site.content) := by
  have suitsSite := suits site present
  have gains := gains_putDefaults suits
  have walked := Host.directoryAt?_eq_some.mp suitsSite.leads
  have stands : (putDefaults patchFile sites host.files).at? (site.place ++ [patchFile]) =
      some (.file site.content) := by
    rw [gains.stands, defaultAt?_of_mem suits present]
  have looked : host.files.find host.directory (site.root.join patchFile) ≠ .error .tooLong := by
    intro long
    unfold Host.isFile Host.node? at missing
    rw [suitsSite.nameable, long] at missing
    cases missing
  rw [join_of_plain plain] at looked ⊢
  unfold FileTree.find at looked ⊢
  split at looked
  · exact absurd rfl looked
  · rename_i short
    have led : host.files.walk (if site.root.root = .relative then host.directory else [])
        site.root.names = .ok (site.place, .directory) := walked
    rw [FileTree.walk_concat _ _ _ plain.2, led] at looked
    rw [if_neg short, FileTree.walk_concat _ _ _ plain.2, gains.walk_of_ok led]
    simp only at looked ⊢
    split at looked
    · exact absurd rfl looked
    · rename_i fits
      rw [if_neg fits, stands]

private theorem isFile_of_find {path : FilePath} {place : List String} {content : Content}
    (nameable : Host.namingFault? path = none)
    (found : host.files.find host.directory path = .ok (place, .file content)) :
    host.isFile path = .ok true := by
  unfold Host.isFile Host.node?
  rw [nameable, found]
  rfl

private theorem readLines_of_find {path : FilePath} {place : List String} {text : String}
    (nameable : Host.namingFault? path = none)
    (found : host.files.find host.directory path =
      .ok (place, .file (.bytes (Text.Utf8.encode text)))) :
    host.readLines path = .ok (String.ofList (Text.unifyLineEnds text.toList)) := by
  unfold Host.readLines Host.readText Host.readBytes Host.read
  rw [nameable]
  have bytes : (pure (Text.Utf8.encode text) : Except Fault (List UInt8)) =
      .ok (Text.Utf8.encode text) := rfl
  simp only [found, exceptBind_ok, bytes, Text.Utf8.decode?_encode]
  rfl

/-- Of a module at a site its default declaration is found, where none was. -/
theorem memberOf_site (plain : IsPlainFile patchFile)
    (suits : ∀ site ∈ sites, site.Suits host patchFile modules) {site : Site}
    (present : site ∈ sites) {roots : DistinctList FilePath}
    (listed : modules.get? site.module = some roots) :
    memberOf host patchFile site.module roots.toList = .ok ⟨site.module, roots.toList, none⟩ ∧
      memberOf (withDefaults host patchFile sites) patchFile site.module roots.toList =
        .ok ⟨site.module, roots.toList, some (Patch.defaultDeclaration site.module)⟩ := by
  have suitsSite := suits site present
  obtain ⟨others, same, first, missing⟩ := suitsSite.undeclared
  rw [listed, Option.some.injEq] at same
  subst same
  have found := find_default plain suits present (isFile_of_none first missing)
  refine ⟨memberOf_none missing, ?_⟩
  have sought : patchFileOf? (withDefaults host patchFile sites) patchFile roots.toList =
      .ok (some (site.root.join patchFile)) := by
    have file : (withDefaults host patchFile sites).isFile (site.root.join patchFile) =
        .ok true := isFile_of_find suitsSite.nameable found
    cases listing : roots.toList with
    | nil =>
        rw [listing] at first
        cases first
    | cons root rest =>
        rw [listing] at first
        cases first
        unfold patchFileOf?
        rw [file]
        rfl
  have read : declarationAt (withDefaults host patchFile sites) (site.root.join patchFile) =
      .ok (Patch.defaultDeclaration site.module) := by
    have lines : (withDefaults host patchFile sites).readLines (site.root.join patchFile) =
        .ok (String.ofList (Text.unifyLineEnds (Patch.defaultText site.module).toList)) :=
      readLines_of_find suitsSite.nameable found
    unfold declarationAt
    rw [lines, exceptBind_ok, Patch.unifyLineEnds_defaultText suitsSite.valid,
      String.ofList_toList, Patch.ofText_defaultText suitsSite.valid]
    rfl
  rw [memberOf_some sought, read]
  rfl

/-! ### All modules -/

/-- A module with its default patch file, if it is at a site. -/
def Member.atSites (sites : List Site) (member : Member) : Member :=
  if member.name ∈ sites.map Site.module then
    { member with declaration := some (Patch.defaultDeclaration member.name) }
  else member

private theorem memberOf_withDefaults (plain : IsPlainFile patchFile)
    (suits : ∀ site ∈ sites, site.Suits host patchFile modules)
    {entry : String × DistinctList FilePath} (present : entry ∈ modules.entries) :
    memberOf (withDefaults host patchFile sites) patchFile entry.1 entry.2.toList =
      (memberOf host patchFile entry.1 entry.2.toList).map (Member.atSites sites) := by
  by_cases atSite : entry.1 ∈ sites.map Site.module
  · obtain ⟨site, among, named⟩ := List.mem_map.mp atSite
    have listed := KeyedList.get?_of_mem_entries present
    rw [← named] at listed
    obtain ⟨before, after⟩ := memberOf_site plain suits among listed
    rw [← named, before, after]
    have here : site.module ∈ sites.map Site.module := List.mem_map_of_mem among
    simp only [Except.map, Member.atSites, if_pos here]
  · have elsewhere : ∀ root ∈ entry.2.toList, ∀ site ∈ sites,
        host.directoryAt? root ≠ some site.place := by
      intro root among site siteAmong
      apply (suits site siteAmong).alone entry present _ root among
      intro named
      rw [named] at atSite
      exact atSite (List.mem_map_of_mem siteAmong)
    rw [memberOf_elsewhere plain suits entry.1 elsewhere]
    cases found : memberOf host patchFile entry.1 entry.2.toList with
    | error fault => rfl
    | ok member =>
        rw [← (made_of_memberOf found).1] at atSite
        simp only [Except.map, Member.atSites, if_neg atSite]

theorem members_withDefaults (plain : IsPlainFile patchFile)
    (suits : ∀ site ∈ sites, site.Suits host patchFile modules) :
    (modules.entries.mapM fun entry =>
        memberOf (withDefaults host patchFile sites) patchFile entry.1 entry.2.toList) =
      (modules.entries.mapM fun entry => memberOf host patchFile entry.1 entry.2.toList).map
        (List.map (Member.atSites sites)) :=
  mapM_map_of_forall fun _ present => memberOf_withDefaults plain suits present

theorem undeclared_of_atSite (plain : IsPlainFile patchFile)
    (suits : ∀ site ∈ sites, site.Suits host patchFile modules) {members : List Member}
    (found : (modules.entries.mapM fun entry =>
      memberOf host patchFile entry.1 entry.2.toList) = .ok members)
    {member : Member} (present : member ∈ members)
    (atSite : member.name ∈ sites.map Site.module) :
    member.declaration = none ∧ isValidName member.name = true := by
  obtain ⟨entry, among, made⟩ := (made_of_mapM found).1 member present
  obtain ⟨site, siteAmong, named⟩ := List.mem_map.mp atSite
  have listed := KeyedList.get?_of_mem_entries among
  rw [← (made_of_memberOf made).1, ← named] at listed
  rw [← (made_of_memberOf made).1, ← named] at made
  rw [(memberOf_site plain suits siteAmong listed).1] at made
  cases made
  exact ⟨rfl, (suits site siteAmong).valid⟩

theorem exists_member_atSite {members : List Member}
    (found : (modules.entries.mapM fun entry =>
      memberOf host patchFile entry.1 entry.2.toList) = .ok members)
    {site : Site} (suits : site.Suits host patchFile modules) :
    ∃ member ∈ members, member.name = site.module := by
  obtain ⟨roots, listed, _⟩ := suits.undeclared
  obtain ⟨member, present, made⟩ :=
    (made_of_mapM found).2 _ (KeyedList.mem_entries_of_get? listed)
  exact ⟨member, present, (made_of_memberOf made).1⟩

end Sites

end ModulePlan.Plan
