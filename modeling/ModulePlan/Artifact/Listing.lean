/-
Module declarations as javap lists them.

The declaration stands at the beginning of a line: the word `module`, perhaps after `open`,
a name, perhaps a version behind an at sign, and a brace.  Each requirement begins a line
with the word `requires`, then has modifiers, a name and a semicolon.  A modifier that
stands where the name is due is the name.
-/

import ModulePlan.Dependency
import ModulePlan.DistinctList
import ModulePlan.Text.Word

namespace ModulePlan.Listing

def isNameChar (c : Char) : Bool :=
  Text.isWord c || c == '.' || c == '$'

def dropBlank (cs : List Char) : List Char :=
  cs.dropWhile Text.isBlank

/-- The text behind a word that white space follows, and behind that white space. -/
def afterWord? (word cs : List Char) : Option (List Char) :=
  if word.isPrefixOf cs && ((cs.drop word.length).head?.any Text.isBlank) then
    some (dropBlank (cs.drop word.length))
  else none

def afterChar? (c : Char) : List Char → Option (List Char)
  | [] => none
  | d :: rest => if d = c then some rest else none

/-- Does the brace of a declaration follow, perhaps behind a version?  A version goes on to
white space, and the brace may be taken from its end. -/
def opensBody (cs : List Char) : Bool :=
  match afterChar? '@' cs with
  | none => (dropBlank cs).head? = some '{'
  | some version =>
    let run := version.takeWhile fun c => !Text.isBlank c
    run.contains '{' || (dropBlank (version.drop run.length)).head? = some '{'

def declaredHere? (cs : List Char) : Option (List Char) := do
  let start := dropBlank cs
  let start := (afterWord? "open".toList start).getD start
  let rest ← afterWord? "module".toList start
  let name := rest.takeWhile isNameChar
  if name ≠ [] && opensBody (rest.drop name.length) then some name else none

/-- The first module declared at the beginning of a line. -/
def declared? (lineStart : Bool) : List Char → Option (List Char)
  | [] => none
  | c :: rest =>
    match if lineStart then declaredHere? (c :: rest) else none with
    | some name => some name
    | none => declared? (c = '\n') rest

def modifiers : List (List Char) :=
  ["transitive".toList, "static".toList, "mandated".toList, "synthetic".toList]

theorem length_dropBlank_le (cs : List Char) : (dropBlank cs).length ≤ cs.length :=
  (List.dropWhile_sublist _).length_le

/-- The required name after any modifiers, and the text behind its semicolon.  `latest` is
the modifier before this place. -/
def requiredName? (latest : List Char) (cs : List Char) : Option (List Char × List Char) :=
  let word := cs.takeWhile isNameChar
  let rest := cs.drop word.length
  if word = [] then
    if latest = [] then none else (afterChar? ';' cs).map fun after => (latest, after)
  else if modifiers.contains word && rest.head?.any Text.isBlank then
    requiredName? word (dropBlank rest)
  else (afterChar? ';' (dropBlank rest)).map fun after => (word, after)
termination_by cs.length
decreasing_by
  rename_i isWord _
  have shorter := length_dropBlank_le (cs.drop (cs.takeWhile isNameChar).length)
  rw [List.length_drop] at shorter
  have someChars : (cs.takeWhile isNameChar).length ≠ 0 := by
    intro none
    exact isWord (List.eq_nil_of_length_eq_zero none)
  have fits : (cs.takeWhile isNameChar).length ≤ cs.length :=
    (List.takeWhile_sublist _).length_le
  omega

def requiredHere? (cs : List Char) : Option (List Char × List Char) := do
  requiredName? [] (← afterWord? "requires".toList (dropBlank cs))

theorem length_of_afterChar {c : Char} {cs after : List Char}
    (found : afterChar? c cs = some after) : after.length < cs.length := by
  cases cs with
  | nil => simp [afterChar?] at found
  | cons d rest =>
    by_cases same : d = c
    · simp only [afterChar?, if_pos same, Option.some.injEq] at found
      subst found
      simp
    · simp [afterChar?, if_neg same] at found

theorem length_of_afterChar_map {c : Char} {cs name after word : List Char}
    (found : (afterChar? c cs).map (fun tail => (word, tail)) = some (name, after)) :
    after.length < cs.length := by
  obtain ⟨tail, inner, same⟩ := Option.map_eq_some_iff.mp found
  have equal : tail = after := congrArg Prod.snd same
  subst equal
  exact length_of_afterChar inner

theorem length_of_requiredName {latest cs name after : List Char}
    (found : requiredName? latest cs = some (name, after)) : after.length < cs.length := by
  fun_induction requiredName? latest cs with
  | case1 => cases found
  | case2 => exact length_of_afterChar_map found
  | case3 latest cs word rest isWord again ih =>
    have inner := ih found
    have shorter := length_dropBlank_le rest
    have fewer : rest.length ≤ cs.length := by simp [rest]
    omega
  | case4 latest cs word rest isWord again =>
    have inner := length_of_afterChar_map found
    have shorter := length_dropBlank_le rest
    have fewer : rest.length ≤ cs.length := by simp [rest]
    omega

theorem length_of_afterWord {word cs after : List Char}
    (found : afterWord? word cs = some after) : after.length ≤ cs.length := by
  unfold afterWord? at found
  split at found
  · cases found
    have shorter := length_dropBlank_le (cs.drop word.length)
    rw [List.length_drop] at shorter
    omega
  · cases found

theorem length_of_requiredHere {cs name after : List Char}
    (found : requiredHere? cs = some (name, after)) : after.length < cs.length := by
  obtain ⟨rest, start, required⟩ := Option.bind_eq_some_iff.mp found
  have first := length_dropBlank_le cs
  have second := length_of_afterWord start
  have third := length_of_requiredName required
  omega

/-- The names required at the beginnings of lines, one requirement after another. -/
def requirements (lineStart : Bool) (cs : List Char) : List (List Char) :=
  match cs with
  | [] => []
  | c :: rest =>
    match _found : if lineStart then requiredHere? (c :: rest) else none with
    | some (name, after) => name :: requirements false after
    | none => requirements (c = '\n') rest
termination_by cs.length
decreasing_by
  · split at _found
    · exact length_of_requiredHere _found
    · cases _found
  · simp

def descriptor? (listing : String) : Option ModuleDescriptor := do
  let name ← declared? true listing.toList
  let required := (requirements true listing.toList).map String.ofList
  return { name := String.ofList name, requires := (DistinctList.ofList required).toList }

end ModulePlan.Listing
