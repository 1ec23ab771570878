import Mathlib.Data.List.Nodup
import ScriptSense.Proofs.RenderedList

/-!
Placeholders and labels. A placeholder depends on its position only, so two of them never meet, and a
label tells every part of its parameter. Hence labels collide only if two parameters are declared with
the same label, or if a parameter is declared with the very name that stands in for a missing one.
-/
namespace ScriptSense

namespace Parameter

theorem placeholder_injective (first second : Nat) (same : placeholder first = placeholder second) :
    first = second := by
  have letters : ∀ first < 26, ∀ second < 26, placeholder first = placeholder second →
      first = second := by
    decide
  have numbered (index : Nat) (large : ¬index < 26) :
      placeholder index = 'a' :: Nat.toDigits 10 index := if_neg large
  -- A letter stands alone, and digits follow it behind the letters.
  have longer (small large : Nat) (letter : small < 26) (number : ¬large < 26) :
      placeholder small ≠ placeholder large := by
    intro same
    rw [placeholder, if_pos letter, numbered large number, List.cons.injEq] at same
    exact Nat.toDigits_ne_nil same.2.symm
  by_cases letter : first < 26
  · by_cases other : second < 26
    · exact letters first letter second other same
    · exact absurd same (longer first second letter other)
  · by_cases other : second < 26
    · exact absurd same.symm (longer second first other letter)
    · rw [numbered first letter, numbered second other, List.cons.injEq] at same
      rw [← Nat.ofDigitChars_toDigits (b := 10) (n := first) (by decide) (by decide), same.2,
        Nat.ofDigitChars_toDigits (by decide) (by decide)]

theorem hasName_iff (parameter : Parameter) : parameter.hasName = true ↔ parameter.name ≠ [] := by
  simp [hasName]

theorem named_hasName (index : Nat) (parameter : Parameter) :
    (parameter.named index).hasName = true := by
  rw [named]
  split
  · assumption
  · rw [hasName_iff]
    exact (Text.identifier_chars _ (placeholder_identifier index)).1

theorem named_explicit (index : Nat) (parameter : Parameter) (explicit : parameter.hasName = true) :
    parameter.named index = parameter := if_pos explicit

theorem named_unnamed (index : Nat) (parameter : Parameter) (unnamed : parameter.hasName = false) :
    (parameter.named index).name = placeholder index := by
  rw [named, if_neg (by simp [unnamed])]

/-- No parameter is declared with the placeholder of one that would be the same but has no name. -/
def PlaceholdersFree (parameters : List Parameter) : Prop :=
  ∀ (index : Nat) (inside : index < parameters.length), parameters[index].hasName = false →
    parameters[index].named index ∉ parameters

theorem named_apart (parameters : List Parameter) (free : PlaceholdersFree parameters)
    (index other : Nat) (inside : index < parameters.length) (within : other < parameters.length)
    (differ : index ≠ other) (unnamed : parameters[index].hasName = false) :
    parameters[index].named index ≠ parameters[other].named other := by
  intro same
  cases explicit : parameters[other].hasName with
  | true =>
      rw [named_explicit other _ explicit] at same
      exact free index inside unnamed (same ▸ List.getElem_mem within)
  | false =>
      have names := congrArg Parameter.name same
      rw [named_unnamed index _ unnamed, named_unnamed other _ explicit] at names
      exact differ (placeholder_injective index other names)

theorem named_nodup_iff (parameters : List Parameter) :
    (parameters.mapIdx named).Nodup ↔
      (parameters.filter hasName).Nodup ∧ PlaceholdersFree parameters := by
  constructor
  · intro distinct
    constructor
    · rw [List.Nodup, List.pairwise_filter, List.pairwise_iff_getElem]
      intro index other inside within earlier explicit alike
      have pair := List.pairwise_iff_getElem.mp distinct index other (by simpa) (by simpa) earlier
      rwa [List.getElem_mapIdx, List.getElem_mapIdx, named_explicit _ _ explicit,
        named_explicit _ _ alike] at pair
    · intro index inside unnamed member
      obtain ⟨other, within, there⟩ := List.getElem_of_mem member
      have bound : index < (parameters.mapIdx named).length := by simpa
      have reach : other < (parameters.mapIdx named).length := by simpa
      have same : (parameters.mapIdx named)[other] = (parameters.mapIdx named)[index] := by
        rw [List.getElem_mapIdx, List.getElem_mapIdx, there, named_explicit other _ (named_hasName _ _)]
      obtain rfl := (List.Nodup.getElem_inj_iff distinct).mp same
      rw [there, named_hasName] at unnamed
      cases unnamed
  · rintro ⟨explicit, free⟩
    rw [List.Nodup, List.pairwise_filter, List.pairwise_iff_getElem] at explicit
    rw [List.Nodup, List.pairwise_iff_getElem]
    intro index other inside within earlier
    rw [List.length_mapIdx] at inside within
    rw [List.getElem_mapIdx, List.getElem_mapIdx]
    cases named : parameters[index].hasName with
    | false => exact named_apart parameters free index other inside within (by omega) named
    | true =>
        cases alike : parameters[other].hasName with
        | false => exact (named_apart parameters free other index within inside (by omega) alike).symm
        | true =>
            rw [named_explicit _ _ named, named_explicit _ _ alike]
            exact explicit index other inside within earlier named alike

theorem constText_apart (first second : Parameter) (canonical : second.Canonical)
    (isConst : first.isConst = true) (plain : second.isConst = false) :
    first.constText ++ first.type ≠ second.constText ++ second.type := by
  intro same
  have noConst := canonical.noConst plain
  rw [constText, constText, isConst, plain] at same
  have type : second.type = "const".toList ++ ' ' :: first.type := same.symm
  rw [type, Text.after?_append] at noConst
  cases noConst

section
variable {first second : Parameter} (canonical : first.Canonical) (other : second.Canonical)
variable (named : Text.isIdentifier first.name = true) (alike : Text.isIdentifier second.name = true)
include canonical other named alike

/-- The declaration of a label tells the type, the passing and the name. -/
theorem declaredText_injective (same : first.declaredText = second.declaredText) :
    first.isConst = second.isConst ∧ first.type = second.type ∧ first.passing = second.passing ∧
      first.name = second.name := by
  have split (parameter : Parameter) (canonical : parameter.Canonical)
      (named : Text.isIdentifier parameter.name = true) :
      splitName parameter.declaredText =
        (parameter.constText ++ parameter.type, parameter.passing, parameter.name) := by
    have noReference : '&' ∉ parameter.constText ++ parameter.type := by
      rw [List.mem_append, not_or, constText]
      refine ⟨?_, canonical.noReference⟩
      split <;> decide
    rw [declaredText_shape, ← List.append_assoc]
    exact splitName_behind canonical.nameable _ canonical.front_trimmed noReference
      (behindType_named parameter named)
  have parts := split first canonical named
  rw [same, split second other alike, Prod.mk.injEq, Prod.mk.injEq] at parts
  obtain ⟨front, passing, name⟩ := parts
  have isConst : first.isConst = second.isConst := by
    cases const : first.isConst with
    | true =>
        cases plain : second.isConst with
        | true => rfl
        | false => exact absurd front.symm (constText_apart first second other const plain)
    | false =>
        cases marked : second.isConst with
        | true => exact absurd front (constText_apart second first canonical marked const)
        | false => rfl
  rw [constText, constText, isConst] at front
  exact ⟨isConst, (List.append_cancel_left front).symm, passing.symm, name.symm⟩

/-- A label tells its parameter. -/
theorem render_injective (same : first.render = second.render) : first = second := by
  obtain ⟨gap, assigned, split, default⟩ := canonical.render_span
  obtain ⟨space, value, cut, given⟩ := other.render_span
  rw [same, cut, Prod.mk.injEq] at split
  have declared := congrArg Text.trim split.1
  rw [Text.trim_append_gap, Text.trim_append_gap, Text.trim_trimmed _ canonical.declared_trimmed,
    Text.trim_trimmed _ other.declared_trimmed] at declared
  obtain ⟨isConst, type, passing, name⟩ :=
    declaredText_injective canonical other named alike declared.symm
  rw [← split.2, given] at default
  cases first
  cases second
  simp_all

end

end Parameter

theorem nodup_view_iff {α β : Type} (view : α → β) (list : List α)
    (injective : ∀ first ∈ list, ∀ second ∈ list, view first = view second → first = second) :
    (list.map view).Nodup ↔ list.Nodup :=
  ⟨List.Nodup.of_map view, List.Nodup.map_on injective⟩

namespace Signature

def declared (list : Text) : List Parameter := (splitParameters list).filterMap Parameter.parse?

theorem declared_canonical (list : Text) (parameter : Parameter) (member : parameter ∈ declared list) :
    parameter.Canonical := by
  obtain ⟨piece, _, read⟩ := List.mem_filterMap.mp member
  exact Parameter.parse?_canonical piece parameter read

/-- The labels of a signature are pairwise different exactly if those of the parameters that are declared
with a name are, and none of them is declared as another one is that has no name, with its placeholder.
So placeholders never meet each other, and the labels collide only through a declared name. -/
theorem labels_distinct_iff (list : Text) :
    (parse list).labels.Nodup ↔
      (((declared list).filter Parameter.hasName).map Parameter.render).Nodup ∧
        Parameter.PlaceholdersFree (declared list) := by
  have labels : (parse list).labels.Nodup ↔ ((declared list).mapIdx Parameter.named).Nodup := by
    refine nodup_view_iff _ _ fun first member second other same => ?_
    obtain ⟨canonical, named⟩ := parse_parameters list first member
    obtain ⟨alike, given⟩ := parse_parameters list second other
    exact Parameter.render_injective canonical alike named given same
  have explicit : (((declared list).filter Parameter.hasName).map Parameter.render).Nodup ↔
      ((declared list).filter Parameter.hasName).Nodup := by
    have read (parameter : Parameter) (member : parameter ∈ (declared list).filter Parameter.hasName) :
        parameter.Canonical ∧ Text.isIdentifier parameter.name = true := by
      obtain ⟨inside, hasName⟩ := List.mem_filter.mp member
      have canonical := declared_canonical list parameter inside
      exact ⟨canonical, canonical.nameable.resolve_left (parameter.hasName_iff.mp hasName)⟩
    refine nodup_view_iff _ _ fun first member second other same => ?_
    exact Parameter.render_injective (read first member).1 (read second other).1 (read first member).2
      (read second other).2 same
  rw [labels, explicit, Parameter.named_nodup_iff]

/-- The name `b` of the first parameter is the placeholder of the second. -/
theorem placeholder_collides :
    let list := "int b, int".toList
    (((declared list).filter Parameter.hasName).map Parameter.render).Nodup ∧
      (parse list).labels = ["int b".toList, "int b".toList] ∧ ¬(parse list).labels.Nodup := by
  decide

end Signature

end ScriptSense
