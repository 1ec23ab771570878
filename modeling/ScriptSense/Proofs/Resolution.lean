import Mathlib.Data.List.Induction
import ScriptSense.Resolution

/-!
A chain is resolved one segment at a time. What it evaluates to depends on its last segment and on
the object that the segments before it evaluate to, so the members of that object are exactly the
ways to go on. Where the front of a chain leads nowhere, the whole chain does.
-/
namespace ScriptSense

namespace Resolver

variable (resolver : Resolver)

def Documented (reached : Reached) : Prop :=
  reached.object = resolver.knowledge.object? (lookupName reached.type)

/-- The front of the chain leads to no type, or a front that is not all of it to no object. -/
def Stuck (chain : List Segment) : Prop :=
  ∃ front, front ≠ [] ∧ front <+: chain ∧
    (resolver.type? front = none ∨ front ≠ chain ∧ resolver.object? front = none)

structure Unresolved (chain : List Segment) : Prop where
  type : resolver.type? chain = none
  object : resolver.object? chain = none
  callable : resolver.callable? chain = none
  property : resolver.property? chain = none

theorem first?_documented (segment : Segment) (reached : Reached)
    (found : resolver.first? segment = some reached) : resolver.Documented reached := by
  cases segment with
  | access name =>
      obtain ⟨type, _, rfl⟩ := Option.map_eq_some_iff.mp found
      rfl
  | call name =>
      obtain ⟨callable, _, rfl⟩ := Option.map_eq_some_iff.mp found
      rfl

theorem member?_documented (before reached : Reached) (segment : Segment)
    (found : resolver.member? before segment = some reached) : resolver.Documented reached := by
  cases segment with
  | access name =>
      obtain ⟨property, _, rfl⟩ := Option.map_eq_some_iff.mp found
      rfl
  | call name =>
      obtain ⟨method, _, rfl⟩ := Option.map_eq_some_iff.mp found
      rfl

theorem walk?_append (front later : List Segment) (some_segment : front ≠ []) :
    resolver.walk? (front ++ later) =
      (resolver.walk? front).bind fun reached => later.foldlM resolver.member? reached := by
  cases front with
  | nil => exact absurd rfl some_segment
  | cons first rest =>
      rw [List.cons_append, walk?, walk?, Option.bind_assoc]
      congr 1
      funext reached
      exact List.foldlM_append

theorem walk?_concat (front : List Segment) (last : Segment) (some_segment : front ≠ []) :
    resolver.walk? (front ++ [last]) =
      (resolver.walk? front).bind fun reached => resolver.member? reached last := by
  rw [walk?_append resolver front [last] some_segment]
  congr 1
  funext reached
  simp

-- A segment sets the type and the object together, so only the last one matters.
theorem walk?_documented (chain : List Segment) (reached : Reached)
    (found : resolver.walk? chain = some reached) : resolver.Documented reached := by
  cases chain using List.reverseRecOn with
  | nil => cases found
  | append_singleton front last =>
      by_cases alone : front = []
      · subst alone
        have first : resolver.first? last = some reached := by simpa [walk?] using found
        exact first?_documented resolver last reached first
      · rw [walk?_concat resolver front last alone] at found
        obtain ⟨before, _, member⟩ := Option.bind_eq_some_iff.mp found
        exact member?_documented resolver before reached last member

theorem object?_of_type? (chain : List Segment) :
    resolver.object? chain =
      (resolver.type? chain).bind fun type => resolver.knowledge.object? (lookupName type) := by
  rw [object?, type?]
  cases found : resolver.walk? chain with
  | none => rfl
  | some reached => exact walk?_documented resolver chain reached found

section Last

variable (front : List Segment) (name : Text) (some_segment : front ≠ [])
include some_segment

theorem walk?_call :
    resolver.walk? (front ++ [.call name]) =
      ((resolver.object? front).bind (·.method? name)).map fun method =>
        resolver.reach method.type (some method) := by
  rw [walk?_concat resolver front _ some_segment, object?]
  cases resolver.walk? front <;> rfl

theorem walk?_access :
    resolver.walk? (front ++ [.access name]) =
      ((resolver.object? front).bind (·.property? name)).map fun property =>
        resolver.reach property.type none := by
  rw [walk?_concat resolver front _ some_segment, object?]
  cases resolver.walk? front <;> rfl

theorem callable?_call :
    resolver.callable? (front ++ [.call name]) =
      (resolver.object? front).bind (·.method? name) := by
  rw [callable?, walk?_call resolver front name some_segment]
  cases (resolver.object? front).bind (·.method? name) <;> rfl

theorem type?_call :
    resolver.type? (front ++ [.call name]) =
      ((resolver.object? front).bind (·.method? name)).map (·.type) := by
  rw [type?, walk?_call resolver front name some_segment, Option.map_map]
  rfl

theorem type?_access :
    resolver.type? (front ++ [.access name]) =
      ((resolver.object? front).bind (·.property? name)).map (·.type) := by
  rw [type?, walk?_access resolver front name some_segment, Option.map_map]
  rfl

theorem callable?_access : resolver.callable? (front ++ [.access name]) = none := by
  rw [callable?, walk?_access resolver front name some_segment]
  cases (resolver.object? front).bind (·.property? name) <;> rfl

end Last

theorem property?_access (front : List Segment) (name : Text) :
    resolver.property? (front ++ [.access name]) =
      (resolver.object? front).bind (·.property? name) := by
  rw [property?, List.getLast?_concat, List.dropLast_concat]

theorem property?_call (front : List Segment) (name : Text) :
    resolver.property? (front ++ [.call name]) = none := by
  rw [property?, List.getLast?_concat]

theorem unresolved_of_walk? (chain : List Segment) (nowhere : resolver.walk? chain = none) :
    resolver.Unresolved chain := by
  refine ⟨?_, ?_, ?_, ?_⟩
  · rw [type?, nowhere]
    rfl
  · rw [object?, nowhere]
    rfl
  · rw [callable?, nowhere]
    rfl
  · cases chain using List.reverseRecOn with
    | nil => rfl
    | append_singleton front last =>
        cases last with
        | call name => exact property?_call resolver front name
        | access name =>
            rw [property?_access]
            by_cases alone : front = []
            · subst alone
              rfl
            · rw [walk?_access resolver front name alone] at nowhere
              exact Option.map_eq_none_iff.mp nowhere

-- A front without a type is one that the walk does not get through; one without an object may be
-- all of the chain, but no segment can follow it.
theorem walk?_stuck (chain : List Segment) (stuck : resolver.Stuck chain) :
    resolver.walk? chain = none := by
  obtain ⟨front, some_segment, ⟨later, rfl⟩, noType | ⟨unfinished, noObject⟩⟩ := stuck
  · have nowhere : resolver.walk? front = none := Option.map_eq_none_iff.mp noType
    rw [walk?_append resolver front later some_segment, nowhere]
    rfl
  · cases later with
    | nil => simp at unfinished
    | cons next later =>
        have stop : resolver.walk? (front ++ [next]) = none := by
          cases next with
          | call name =>
              rw [walk?_call resolver front name some_segment, noObject]
              rfl
          | access name =>
              rw [walk?_access resolver front name some_segment, noObject]
              rfl
        rw [List.append_cons, walk?_append resolver (front ++ [next]) later (by simp), stop]
        rfl

/-- A chain leads on through the members of the object it evaluates to, and in no other way. -/
theorem chain_by_members (chain : List Segment) (some_segment : chain ≠ []) :
    (resolver.object? chain =
        (resolver.type? chain).bind fun type => resolver.knowledge.object? (lookupName type)) ∧
      (∀ name,
        resolver.type? (chain ++ [.call name]) =
            ((resolver.object? chain).bind (·.method? name)).map (·.type) ∧
          resolver.callable? (chain ++ [.call name]) =
            (resolver.object? chain).bind (·.method? name) ∧
          resolver.type? (chain ++ [.access name]) =
            ((resolver.object? chain).bind (·.property? name)).map (·.type) ∧
          resolver.property? (chain ++ [.access name]) =
            (resolver.object? chain).bind (·.property? name) ∧
          resolver.callable? (chain ++ [.access name]) = none) ∧
      (resolver.Stuck chain → resolver.Unresolved chain) :=
  ⟨resolver.object?_of_type? chain,
    fun name =>
      ⟨resolver.type?_call chain name some_segment, resolver.callable?_call chain name some_segment,
        resolver.type?_access chain name some_segment, resolver.property?_access chain name,
        resolver.callable?_access chain name some_segment⟩,
    fun stuck => resolver.unresolved_of_walk? chain (resolver.walk?_stuck chain stuck)⟩

-- A method is found behind a handle, and behind a number there is nothing.
theorem chain_by_members_number :
    ∃ resolver : Resolver,
      resolver.type? [.access "b".toList, .call "getSprite".toList] = some "Sprite@".toList ∧
        resolver.Stuck [.access "b".toList, .access "health".toList, .access "x".toList] ∧
        resolver.Unresolved [.access "b".toList, .access "health".toList, .access "x".toList] := by
  let blob : Object :=
    ((Object.ofName "Blob".toList).addProperty "f32".toList "health".toList).addMethod
      "Sprite@".toList "getSprite".toList Signature.empty
  let knowledge : Knowledge := Knowledge.empty.insertObject blob
  let scope : Scope := ⟨some [⟨"Blob@".toList, "b".toList⟩], []⟩
  let resolver : Resolver := ⟨knowledge, Overlay.ofTable knowledge.functions, scope⟩
  let health : List Segment := [.access "b".toList, .access "health".toList]
  have stuck : resolver.Stuck (health ++ [.access "x".toList]) :=
    ⟨health, by simp [health], List.prefix_append _ _, Or.inr ⟨by simp [health], by decide +kernel⟩⟩
  have method := (chain_by_members resolver [.access "b".toList] (by simp)).2.1 "getSprite".toList
  have number := chain_by_members resolver (health ++ [.access "x".toList]) (by simp)
  exact ⟨resolver, method.1.trans (by decide +kernel), stuck, number.2.2 stuck⟩

end Resolver

end ScriptSense
