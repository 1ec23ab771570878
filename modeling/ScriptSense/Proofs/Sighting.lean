import Mathlib.Data.List.Basic
import ScriptSense.Text

/-!
The places of a search. A sighting is a match together with the text in front of it, so two matches of
the same declaration are told apart. The matches of a search are its sightings without their places.
-/
namespace ScriptSense

structure Sighting (α : Type) where
  front : Text
  found : α

variable {α : Type}

def Sighting.behind (lead : Text) (seen : Sighting α) : Sighting α :=
  ⟨lead ++ seen.front, seen.found⟩

def sightingsFrom (rule : Rule α) : Nat → Option Char → Text → List (Sighting α)
  | _, _, [] => []
  | skip + 1, _, first :: rest =>
      (sightingsFrom rule skip (some first) rest).map (Sighting.behind [first])
  | 0, before, first :: rest =>
      match rule before (first :: rest) with
      | none => (sightingsFrom rule 0 (some first) rest).map (Sighting.behind [first])
      | some (found, after) =>
          ⟨[], found⟩ :: (sightingsFrom rule (rest.length - after.length) (some first) rest).map
            (Sighting.behind [first])

def sightings (rule : Rule α) (text : Text) : List (Sighting α) := sightingsFrom rule 0 none text

theorem behind_behind (left right : Text) (seen : List (Sighting α)) :
    (seen.map (Sighting.behind right)).map (Sighting.behind left) =
      seen.map (Sighting.behind (left ++ right)) := by
  simp [Sighting.behind]

theorem found_behind (lead : Text) (seen : List (Sighting α)) :
    (seen.map (Sighting.behind lead)).map (·.found) = seen.map (·.found) := by
  simp [Sighting.behind]

theorem found_sightingsFrom (rule : Rule α) (skip : Nat) (before : Option Char) (text : Text) :
    (sightingsFrom rule skip before text).map (·.found) = findFrom rule skip before text := by
  induction text generalizing skip before with
  | nil => rfl
  | cons first rest ih =>
      cases skip with
      | succ skip => rw [sightingsFrom, found_behind, ih, findFrom]
      | zero =>
          rw [sightingsFrom, findFrom]
          cases rule before (first :: rest) with
          | none => exact (found_behind _ _).trans (ih 0 (some first))
          | some read => exact congrArg (read.1 :: ·) ((found_behind _ _).trans (ih _ (some first)))

theorem found_sightings (rule : Rule α) (text : Text) :
    (sightings rule text).map (·.found) = findAll rule text :=
  found_sightingsFrom rule 0 none text

/-- The rule applies where a match is sighted, and some text is left to apply it to. -/
theorem sightingsFrom_sound (rule : Rule α) (skip : Nat) (before : Option Char) (text : Text)
    (seen : Sighting α) (member : seen ∈ sightingsFrom rule skip before text) :
    ∃ rest after, rest ≠ [] ∧ text = seen.front ++ rest ∧
      rule (seen.front.getLast?.or before) rest = some (seen.found, after) := by
  induction text generalizing skip before seen with
  | nil => simp [sightingsFrom] at member
  | cons first rest ih =>
      have later (skip : Nat)
          (inRest : seen ∈ (sightingsFrom rule skip (some first) rest).map (Sighting.behind [first])) :
          ∃ left after, left ≠ [] ∧ first :: rest = seen.front ++ left ∧
            rule (seen.front.getLast?.or before) left = some (seen.found, after) := by
        obtain ⟨inner, innerMember, rfl⟩ := List.mem_map.mp inRest
        obtain ⟨left, after, some_left, split, read⟩ := ih skip (some first) inner innerMember
        refine ⟨left, after, some_left, congrArg (first :: ·) split, ?_⟩
        have last : (Sighting.behind [first] inner).front.getLast?.or before =
            inner.front.getLast?.or (some first) := by
          rw [Sighting.behind, List.getLast?_append]
          cases inner.front.getLast? <;> rfl
        rw [last]
        exact read
      cases skip with
      | succ skip => exact later skip member
      | zero =>
          rw [sightingsFrom] at member
          split at member
          · exact later 0 member
          · next found after read =>
              rcases List.mem_cons.mp member with rfl | inRest
              · exact ⟨first :: rest, after, List.cons_ne_nil _ _, rfl, read⟩
              · exact later _ inRest

theorem sightings_sound (rule : Rule α) (text : Text) (seen : Sighting α)
    (member : seen ∈ sightings rule text) :
    ∃ rest after, rest ≠ [] ∧ text = seen.front ++ rest ∧
      rule seen.front.getLast? rest = some (seen.found, after) := by
  have sound := sightingsFrom_sound rule 0 none text seen member
  rwa [Option.or_none] at sound

theorem sightingsFrom_front (rule : Rule α) (skip : Nat) (before : Option Char) (text : Text)
    (seen : Sighting α) (member : seen ∈ sightingsFrom rule skip before text) : seen.front <+: text := by
  obtain ⟨rest, _, _, split, _⟩ := sightingsFrom_sound rule skip before text seen member
  exact ⟨rest, split.symm⟩

/-- A match begins in front of the last character or at it. -/
theorem sightingsFrom_front_concat (rule : Rule α) (skip : Nat) (before : Option Char) (text : Text)
    (last : Char) (seen : Sighting α) (member : seen ∈ sightingsFrom rule skip before (text ++ [last])) :
    seen.front <+: text := by
  obtain ⟨rest, _, some_rest, split, _⟩ := sightingsFrom_sound rule skip before _ seen member
  obtain ⟨body, final, rfl⟩ := (List.eq_nil_or_concat' rest).resolve_left some_rest
  rw [← List.append_assoc] at split
  exact ⟨body, (List.append_inj' split rfl).1.symm⟩

end ScriptSense
