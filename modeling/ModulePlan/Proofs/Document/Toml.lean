/-
What a TOML document can hold.

A document that is read holds truth values, numbers, texts, dates and times, lists, and tables
whose keys are texts, and nothing else.  One that is not read is malformed, unless a whole number
in it has too many digits or its values are nested too deeply.
-/

import ModulePlan.Document.Toml.Reader

namespace ModulePlan.Document

/-- Values of TOML documents. -/
inductive Value.IsToml : Value → Prop
  | bool (value : Bool) : IsToml (.bool value)
  | int (value : Int) : IsToml (.int value)
  | float (value : Binary64) : IsToml (.float value)
  | text (value : String) : IsToml (.text value)
  | date (value : Date) : IsToml (.date value)
  | time (value : TimeOfDay) : IsToml (.time value)
  | dateTime (date : Date) (time : TimeOfDay) (offset : Option Int) :
      IsToml (.dateTime date time offset)
  | list {items : List Value} (each : ∀ item ∈ items, IsToml item) : IsToml (.list items)
  | mapping {entries : List (Value × Value)}
      (keys : ∀ entry ∈ entries, ∃ name, entry.1 = .text name)
      (values : ∀ entry ∈ entries, IsToml entry.2) : IsToml (.mapping entries)

/-- The limits at which the reading of a document stops. -/
inductive IsLimit : Fault → Prop
  | digits (count : Nat) : IsLimit (.value (.tooManyDigits count))
  | depth : IsLimit (.kind .tooDeep)

def Refusal.IsPlain : Refusal → Prop
  | .malformed => True
  | .fault cause => IsLimit cause

namespace Toml

/-- What is read has a property, and what is not read is malformed or beyond a limit. -/
def Yields {α : Type} (property : α → Prop) : Except Refusal α → Prop
  | .ok value => property value
  | .error refusal => refusal.IsPlain

theorem Yields.bind {α β : Type} {property : α → Prop} {goal : β → Prop}
    {first : Except Refusal α} {next : α → Except Refusal β} (here : Yields property first)
    (later : ∀ value, property value → Yields goal (next value)) :
    Yields goal (first >>= next) := by
  cases first with
  | error refusal => exact here
  | ok value => exact later value here

theorem Yields.map {α β : Type} {property : α → Prop} {goal : β → Prop}
    {first : Except Refusal α} {change : α → β} (here : Yields property first)
    (later : ∀ value, property value → goal (change value)) :
    Yields goal (first.map change) := by
  cases first with
  | error refusal => exact here
  | ok value => exact later value here

/-! ### Tables -/

/-- The entries of a table: texts with values of documents. -/
structure AreToml (entries : Entries) : Prop where
  keys : ∀ entry ∈ entries, ∃ name, entry.1 = .text name
  values : ∀ entry ∈ entries, entry.2.IsToml

theorem areToml_nil : AreToml [] where
  keys := List.forall_mem_nil _
  values := List.forall_mem_nil _

theorem areToml_cons {entry : Value × Value} {entries : Entries} :
    AreToml (entry :: entries) ↔
      ((∃ name, entry.1 = .text name) ∧ entry.2.IsToml) ∧ AreToml entries := by
  constructor
  · rintro ⟨keys, values⟩
    obtain ⟨key, keys⟩ := List.forall_mem_cons.mp keys
    obtain ⟨value, values⟩ := List.forall_mem_cons.mp values
    exact ⟨⟨key, value⟩, keys, values⟩
  · rintro ⟨⟨key, value⟩, keys, values⟩
    exact ⟨List.forall_mem_cons.mpr ⟨key, keys⟩, List.forall_mem_cons.mpr ⟨value, values⟩⟩

theorem isToml_mapping_iff {entries : Entries} :
    (Value.mapping entries).IsToml ↔ AreToml entries := by
  constructor
  · intro sound
    cases sound with
    | mapping keys values => exact ⟨keys, values⟩
  · intro sound
    exact .mapping sound.keys sound.values

theorem isToml_list_iff {items : List Value} :
    (Value.list items).IsToml ↔ ∀ item ∈ items, item.IsToml := by
  constructor
  · intro sound
    cases sound with
    | list each => exact each
  · exact .list

theorem isToml_of_field? {entries : Entries} {name : String} {value : Value}
    (sound : AreToml entries) (found : Value.field? entries name = some value) :
    value.IsToml := by
  fun_induction Value.field? entries name with
  | case1 => cases found
  | case2 held rest =>
      cases found
      exact (areToml_cons.mp sound).1.2
  | case3 other held rest different ih => exact ih (areToml_cons.mp sound).2 found
  | case4 entry rest other ih => exact ih (areToml_cons.mp sound).2 found

theorem areToml_putEntry {entries : Entries} {value : Value} (sound : AreToml entries)
    (name : String) (held : value.IsToml) :
    AreToml (Value.putEntry (.text name) value entries) := by
  induction entries with
  | nil => exact areToml_cons.mpr ⟨⟨⟨name, rfl⟩, held⟩, areToml_nil⟩
  | cons entry rest ih =>
      obtain ⟨here, later⟩ := areToml_cons.mp sound
      unfold Value.putEntry
      split
      · exact areToml_cons.mpr ⟨⟨here.1, held⟩, later⟩
      · exact areToml_cons.mpr ⟨here, ih later⟩

/-- A change keeps tables of documents what they are. -/
def KeepsToml (change : Entries → Option Entries) : Prop :=
  ∀ entries later, AreToml entries → change entries = some later → AreToml later

theorem keepsToml_some : KeepsToml some := by
  intro entries later sound same
  cases same
  exact sound

theorem keepsToml_putNew {value : Value} (name : String) (held : value.IsToml) :
    KeepsToml (putNew name value) := by
  intro entries later sound put
  unfold putNew at put
  split at put <;> cases put
  exact areToml_putEntry sound name held

theorem keepsToml_appendTable (name : String) : KeepsToml (appendTable name) := by
  have table : (Value.mapping []).IsToml := isToml_mapping_iff.mpr areToml_nil
  intro entries later sound put
  unfold appendTable at put
  split at put
  · cases put
    exact areToml_putEntry sound name
      (isToml_list_iff.mpr (List.forall_mem_singleton.mpr table))
  · rename_i items found
    cases put
    have each := isToml_list_iff.mp (isToml_of_field? sound found)
    refine areToml_putEntry sound name (isToml_list_iff.mpr ?_)
    intro item present
    rcases List.mem_append.mp present with before | last
    · exact each item before
    · obtain rfl := List.mem_singleton.mp last
      exact table
  · cases put

theorem keepsToml_alterTable {change : Entries → Option Entries} (keeps : KeepsToml change)
    (intoLists : Bool) (key : Key) : KeepsToml (alterTable intoLists change key) := by
  intro entries later sound altered
  induction key generalizing entries later with
  | nil => exact keeps entries later sound altered
  | cons name rest ih =>
      -- The table below the name is altered, and put back under it.
      have putBack : ∀ {inner : Entries} {wrap : Entries → Value}, AreToml inner →
          (∀ table, AreToml table → (wrap table).IsToml) →
          (do
            let table ← alterTable intoLists change rest inner
            return Value.putEntry (.text name) (wrap table) entries) = some later →
          AreToml later := by
        intro inner wrap below sure made
        obtain ⟨table, changed, same⟩ := Option.bind_eq_some_iff.mp made
        cases same
        exact areToml_putEntry sound name (sure table (ih inner table below changed))
      have single : ∀ table, AreToml table → (Value.mapping table).IsToml :=
        fun _ => isToml_mapping_iff.mpr
      unfold alterTable at altered
      split at altered
      · exact putBack areToml_nil single altered
      · rename_i inner found
        exact putBack (isToml_mapping_iff.mp (isToml_of_field? sound found)) single altered
      · rename_i items found
        have each := isToml_list_iff.mp (isToml_of_field? sound found)
        split at altered
        · split at altered
          · rename_i inner last
            have table := each _ (List.mem_of_getLast? last)
            refine putBack (isToml_mapping_iff.mp table) (fun table below => ?_) altered
            refine isToml_list_iff.mpr fun item present => ?_
            rcases List.mem_append.mp present with before | here
            · exact each item (List.dropLast_subset _ before)
            · obtain rfl := List.mem_singleton.mp here
              exact single table below
          · cases altered
        · cases altered
      · cases altered

/-! ### Scalars -/

theorem yields_wholeOfDigits (digits : List Char) :
    Yields (fun _ => True) (wholeOfDigits digits) := by
  unfold wholeOfDigits
  split
  · exact .digits _
  · trivial

theorem yields_basicText (multiline : Bool) (cs : List Char) :
    Yields (fun _ => True) (basicText multiline cs) := by
  fun_induction basicText multiline cs with
  | case5 c rest _ _ _ _ ih => exact ih.map fun _ _ => trivial
  | case7 c rest _ _ _ _ ih => exact ih.map fun _ _ => trivial
  | _ => trivial

theorem yields_literalText (cs : List Char) : Yields (fun _ => True) (literalText cs) := by
  fun_induction literalText cs with
  | case4 c rest _ _ ih => exact ih.map fun _ _ => trivial
  | _ => trivial

theorem yields_literalLines (cs : List Char) : Yields (fun _ => True) (literalLines cs) := by
  fun_induction literalLines cs with
  | case4 c rest _ _ ih => exact ih.map fun _ _ => trivial
  | _ => trivial

theorem yields_of_text? {cs : List Char} {reading : Reading (List Char)}
    (found : text? cs = some reading) : Yields (fun _ => True) reading := by
  unfold text? at found
  split at found <;> cases found
  · exact (yields_basicText _ _).map fun _ _ => trivial
  · exact yields_basicText _ _
  · exact (yields_literalLines _).map fun _ _ => trivial
  · exact yields_literalText _

theorem yields_of_dateTime? {cs : List Char} {reading : Reading Value}
    (found : dateTime? cs = some reading) : Yields (fun reading => reading.1.IsToml) reading := by
  unfold dateTime? at found
  obtain ⟨⟨date, rest⟩, _, rfl⟩ := Option.map_eq_some_iff.mp found
  simp only
  split
  · trivial
  · split
    · exact .date _
    · exact .dateTime _ _ _

theorem isToml_of_basedWhole? {cs rest : List Char} {value : Value}
    (found : basedWhole? cs = some (value, rest)) : value.IsToml := by
  unfold basedWhole? at found
  split at found
  · obtain ⟨digits, _, same⟩ := Option.map_eq_some_iff.mp found
    cases same
    exact .int _
  · obtain ⟨digits, _, same⟩ := Option.map_eq_some_iff.mp found
    cases same
    exact .int _
  · obtain ⟨digits, _, same⟩ := Option.map_eq_some_iff.mp found
    cases same
    exact .int _
  · cases found

theorem yields_of_decimal? {cs : List Char} {reading : Reading Value}
    (found : decimal? cs = some reading) : Yields (fun reading => reading.1.IsToml) reading := by
  unfold decimal? at found
  obtain ⟨⟨whole, rest⟩, _, rfl⟩ := Option.map_eq_some_iff.mp found
  simp only
  split
  · have size : Yields (fun _ => True) (do return ((← wholeOfDigits whole : Nat) : Int)) :=
      (yields_wholeOfDigits whole).bind fun _ _ => trivial
    exact size.map fun _ _ => Value.IsToml.int _
  · exact .float _

theorem isToml_of_specialFloat? {cs rest : List Char} {value : Value}
    (found : specialFloat? cs = some (value, rest)) : value.IsToml := by
  unfold specialFloat? at found
  simp only at found
  split at found <;> cases found <;> exact .float _

theorem yields_plainScalar (cs : List Char) :
    Yields (fun reading => reading.1.IsToml) (plainScalar cs) := by
  unfold plainScalar
  split
  · exact .bool true
  · exact .bool false
  split
  · rename_i found
    exact yields_of_dateTime? found
  split
  · exact .time _
  split
  · rename_i found
    exact isToml_of_basedWhole? found
  split
  · rename_i found
    exact yields_of_decimal? found
  split
  · rename_i found
    exact isToml_of_specialFloat? found
  · trivial

/-! ### Keys and lines -/

theorem yields_keyPart (cs : List Char) : Yields (fun _ => True) (keyPart cs) := by
  unfold keyPart
  simp only
  split
  · trivial
  split
  · exact (yields_basicText _ _).map fun _ _ => trivial
  · exact (yields_literalText _).map fun _ _ => trivial
  · trivial

theorem yields_key (fuel : Nat) (cs : List Char) : Yields (fun _ => True) (key fuel cs) := by
  induction fuel generalizing cs with
  | zero => trivial
  | succ fuel ih =>
      refine (yields_keyPart cs).bind fun (name, rest) _ => ?_
      simp only
      split
      · exact (ih _).bind fun _ _ => trivial
      · trivial

theorem yields_skipComment (cs : List Char) : Yields (fun _ => True) (skipComment cs) := by
  unfold skipComment
  split
  · simp only
    split <;> trivial
  · trivial

theorem yields_skipLines (inComment : Bool) (cs : List Char) :
    Yields (fun _ => True) (skipLines inComment cs) := by
  fun_induction skipLines inComment cs with
  | case1 => trivial
  | case2 => trivial
  | _ => first | assumption | trivial

theorem yields_deeper (steps room : Nat) : Yields (fun _ => True) (deeper steps room) := by
  unfold deeper
  split
  · exact .depth
  · trivial

/-! ### Values -/

theorem isToml_of_putInline {entries later : Entries} {closures after : Closures} {place : Key}
    {item : Value} (sound : AreToml entries) (held : item.IsToml)
    (put : putInline entries closures place item = some (later, after)) : AreToml later := by
  unfold putInline at put
  split at put
  · cases put
  · obtain ⟨table, altered, same⟩ := Option.bind_eq_some_iff.mp put
    cases same
    exact keepsToml_alterTable (keepsToml_putNew _ held) false _ entries _ sound altered

/-- Values are read as values of documents.  The induction is on the fuel that values, lists and
tables share. -/
theorem yields_value (fuel : Nat) :
    (∀ room cs, Yields (fun reading => reading.1.IsToml) (value room fuel cs)) ∧
    (∀ room items cs, (∀ item ∈ items, item.IsToml) →
      Yields (fun reading => reading.1.IsToml) (listItems room fuel items cs)) ∧
    ∀ room entries closures cs, AreToml entries →
      Yields (fun reading => reading.1.IsToml) (inlineEntries room fuel entries closures cs) := by
  induction fuel with
  | zero => exact ⟨fun _ _ => trivial, fun _ _ _ _ => trivial, fun _ _ _ _ _ => trivial⟩
  | succ fuel ih =>
      obtain ⟨ofValue, ofItems, ofEntries⟩ := ih
      refine ⟨?_, ?_, ?_⟩
      · intro room cs
        unfold value
        split
        · rename_i found
          exact (yields_of_text? found).map fun _ _ => .text _
        split
        · exact (yields_deeper 2 room).bind fun _ _ => ofItems _ _ _ (List.forall_mem_nil _)
        · split
          · exact isToml_mapping_iff.mpr areToml_nil
          · exact (yields_deeper 3 room).bind fun _ _ => ofEntries _ _ _ _ areToml_nil
        · exact yields_plainScalar _
      · intro room items cs each
        unfold listItems
        refine (yields_skipLines false cs).bind fun start _ => ?_
        split
        · refine isToml_list_iff.mpr fun item present => ?_
          exact each item (List.mem_reverse.mp present)
        · refine (ofValue room _).bind fun (item, rest) here => ?_
          have all : ∀ other ∈ item :: items, other.IsToml :=
            List.forall_mem_cons.mpr ⟨here, each⟩
          refine (yields_skipLines false rest).bind fun start _ => ?_
          split
          · refine isToml_list_iff.mpr fun other present => ?_
            exact all other (List.mem_reverse.mp present)
          · exact ofItems _ _ _ all
          · trivial
      · intro room entries closures cs sound
        unfold inlineEntries
        refine (yields_key fuel cs).bind fun (place, rest) _ => ?_
        simp only
        split
        · refine (ofValue room _).bind fun (item, rest) here => ?_
          simp only
          split
          · trivial
          · rename_i later after put
            have table := isToml_of_putInline sound here put
            split
            · exact isToml_mapping_iff.mpr table
            · exact ofEntries _ _ _ _ table
            · trivial
        · trivial

/-! ### Documents -/

theorem areToml_of_openTable {draft later : Draft} {place : Key} (sound : AreToml draft.entries)
    (opened : draft.openTable place = some later) : AreToml later.entries := by
  unfold Draft.openTable at opened
  simp only at opened
  split at opened
  · cases opened
  · obtain ⟨entries, altered, same⟩ := Option.bind_eq_some_iff.mp opened
    cases same
    exact keepsToml_alterTable keepsToml_some true place _ _ sound altered

theorem areToml_of_openListItem {draft later : Draft} {place : Key}
    (sound : AreToml draft.entries) (opened : draft.openListItem place = some later) :
    AreToml later.entries := by
  unfold Draft.openListItem at opened
  simp only at opened
  split at opened
  · cases opened
  · obtain ⟨entries, altered, same⟩ := Option.bind_eq_some_iff.mp opened
    cases same
    exact keepsToml_alterTable (keepsToml_appendTable _) true _ _ _ sound altered

theorem areToml_of_putValue {draft later : Draft} {place : Key} {item : Value}
    (sound : AreToml draft.entries) (held : item.IsToml)
    (put : draft.putValue place item = some later) : AreToml later.entries := by
  unfold Draft.putValue at put
  simp only at put
  split at put
  · cases put
  · obtain ⟨entries, altered, same⟩ := Option.bind_eq_some_iff.mp put
    cases same
    exact keepsToml_alterTable (keepsToml_putNew _ held) true _ _ _ sound altered

theorem yields_claimed {changed : Option Draft}
    (sound : ∀ draft, changed = some draft → AreToml draft.entries) :
    Yields (fun draft => AreToml draft.entries) (claimed changed) := by
  cases changed with
  | none => trivial
  | some draft => exact sound draft rfl

theorem yields_statement (fuel : Nat) {draft : Draft} (sound : AreToml draft.entries)
    (cs : List Char) :
    Yields (fun reading => AreToml reading.1.entries) (statement fuel draft cs) := by
  unfold statement
  split
  · refine (yields_key fuel _).bind fun (place, rest) _ => ?_
    simp only
    split
    · exact (yields_claimed fun _ => areToml_of_openListItem sound).bind fun _ => id
    · trivial
  · refine (yields_key fuel _).bind fun (place, rest) _ => ?_
    simp only
    split
    · exact (yields_claimed fun _ => areToml_of_openTable sound).bind fun _ => id
    · trivial
  · exact sound
  · refine (yields_key fuel _).bind fun (place, rest) _ => ?_
    simp only
    split
    · refine ((yields_value fuel).1 _ _).bind fun (item, after) here => ?_
      exact (yields_claimed fun _ => areToml_of_putValue sound here).bind fun _ => id
    · trivial

theorem yields_statements (fuel : Nat) {draft : Draft} (sound : AreToml draft.entries)
    (cs : List Char) : Yields (fun draft => AreToml draft.entries) (statements fuel draft cs) := by
  induction fuel generalizing draft cs with
  | zero => exact sound
  | succ fuel ih =>
      unfold statements
      split
      · exact sound
      · exact ih sound _
      · refine (yields_statement fuel sound _).bind fun (later, rest) table => ?_
        refine (yields_skipComment _).bind fun ending _ => ?_
        split
        · exact table
        · exact ih table _
        · trivial

/-- A document that is read is a table of TOML values, and one that is not read is malformed or
beyond a limit. -/
theorem yields_read (text : String) : Yields AreToml (read text) :=
  (yields_statements _ areToml_nil _).bind fun _ => id

end Toml

end ModulePlan.Document
