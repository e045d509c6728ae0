/-
The scopes that values name.

A missing or blank value names the scope of a dependency without any, and any other text the
scope whose word it is, up to the form in which words are compared.
-/

import ModulePlan.ScopeValue

namespace ModulePlan.Scope

open Document (Value)

inductive IsNamedBy : Value → Scope → Prop
  | null : IsNamedBy .null .compile
  | blank {text : String} (empty : Text.isBlankText text = true) : IsNamedBy (.text text) .compile
  | word {text : String} {scope : Scope} (visible : Text.isBlankText text = false)
      (same : scope.word = normalForm text) : IsNamedBy (.text text) scope
  | blankBytes {data : List UInt8} (empty : data.all isBlankByte = true) :
      IsNamedBy (.bytes data) .compile

theorem mem_all (scope : Scope) : scope ∈ all := by
  cases scope <;> decide

theorem word_injective : Function.Injective word := by
  have distinct : ∀ first ∈ all, ∀ second ∈ all, first.word = second.word → first = second := by
    decide
  intro first second same
  exact distinct first (mem_all first) second (mem_all second) same

/-- A text that is not blank names the scope whose word it is, and no other. -/
theorem parse?_eq_some_iff {text : String} (visible : Text.isBlankText text = false)
    {scope : Scope} : parse? (some text) = some scope ↔ scope.word = normalForm text := by
  rw [parse?, visible, if_neg Bool.false_ne_true]
  constructor
  · intro found
    simpa using List.find?_some found
  · intro same
    have present : ∃ other ∈ all, decide (other.word = normalForm text) = true :=
      ⟨scope, mem_all scope, decide_eq_true same⟩
    obtain ⟨other, found⟩ := Option.isSome_iff_exists.mp (List.find?_isSome.mpr present)
    have word := List.find?_some found
    rw [decide_eq_true_eq, ← same] at word
    rw [found, word_injective word]

private theorem ofValue_text_eq_ok_iff {text : String} {scope : Scope} :
    ofValue (.text text) = .ok scope ↔ parse? (some text) = some scope := by
  rw [ofValue]
  cases parse? (some text) with
  | none => simp
  | some named => simp

theorem ofValue_eq_ok_iff {value : Value} {scope : Scope} :
    ofValue value = .ok scope ↔ IsNamedBy value scope := by
  constructor
  · intro named
    cases value with
    | null =>
        cases named
        exact .null
    | text text =>
        have parsed := ofValue_text_eq_ok_iff.mp named
        cases visible : Text.isBlankText text with
        | true =>
            rw [parse?, visible, if_pos rfl] at parsed
            cases parsed
            exact .blank visible
        | false => exact .word visible ((parse?_eq_some_iff visible).mp parsed)
    | bytes data =>
        rw [ofValue] at named
        split at named
        · rename_i empty
          cases named
          exact .blankBytes empty
        · cases named
    | _ => cases named
  · intro named
    cases named with
    | null => rfl
    | blank empty =>
        rw [ofValue_text_eq_ok_iff, parse?, empty, if_pos rfl]
    | word visible same =>
        exact ofValue_text_eq_ok_iff.mpr ((parse?_eq_some_iff visible).mpr same)
    | blankBytes empty => rw [ofValue, if_pos empty]

end ModulePlan.Scope
