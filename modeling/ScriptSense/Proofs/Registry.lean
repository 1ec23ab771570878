import Mathlib.Data.List.Nodup
import ScriptSense.Knowledge

/-!
A registry through its keys and its look-up. An update adds a new key behind the others and keeps an
old one in its place, so keys stay distinct. What holds of every value under its key stays so if the
update keeps it for its own key.
-/
namespace ScriptSense

namespace Registry

variable {α : Type}

theorem keys_updateEntries (key : Text) (fresh : α) (change : α → α) (entries : List (Text × α)) :
    (updateEntries key fresh change entries).map (·.1) =
      if key ∈ entries.map (·.1) then entries.map (·.1) else entries.map (·.1) ++ [key] := by
  induction entries with
  | nil => rfl
  | cons entry rest ih =>
      by_cases same : entry.1 = key
      · simp [updateEntries, same]
      · have other : ¬ key = entry.1 := fun equal => same equal.symm
        rw [updateEntries, if_neg same, List.map_cons, ih]
        by_cases known : key ∈ rest.map (·.1)
        · simp [known]
        · simp [known, other]

theorem keys_update (key : Text) (fresh : α) (change : α → α) (registry : Registry α) :
    (registry.update key fresh change).keys =
      if key ∈ registry.keys then registry.keys else registry.keys ++ [key] :=
  keys_updateEntries key fresh change registry.entries

theorem nodup_keys_update (key : Text) (fresh : α) (change : α → α) (registry : Registry α)
    (distinct : registry.keys.Nodup) : (registry.update key fresh change).keys.Nodup := by
  rw [keys_update]
  split
  · exact distinct
  · next absent =>
      rw [← List.concat_eq_append]
      exact List.Nodup.concat absent distinct

theorem get?_isSome (key : Text) (registry : Registry α) :
    (registry.get? key).isSome = true ↔ key ∈ registry.keys := by
  simp [get?, keys]

theorem mem_of_get? (key : Text) (value : α) (registry : Registry α)
    (found : registry.get? key = some value) : (key, value) ∈ registry.entries := by
  obtain ⟨entry, listed, rfl⟩ := Option.map_eq_some_iff.mp found
  have same := List.find?_some listed
  rw [decide_eq_true_eq] at same
  rw [← same]
  exact List.mem_of_find?_eq_some listed

theorem contains_get? (key : Text) (registry : Registry α) :
    registry.contains key = (registry.get? key).isSome := by
  rw [Bool.eq_iff_iff, get?_isSome]
  simp [contains, keys]

theorem get?_of_mem (registry : Registry α) (distinct : registry.keys.Nodup)
    (entry : Text × α) (member : entry ∈ registry.entries) :
    registry.get? entry.1 = some entry.2 := by
  obtain ⟨entries⟩ := registry
  simp only [keys, get?] at distinct member ⊢
  induction entries with
  | nil => cases member
  | cons first rest ih =>
      rw [List.map_cons, List.nodup_cons] at distinct
      rcases List.mem_cons.mp member with rfl | later
      · simp
      · have other : ¬ first.1 = entry.1 := by
          intro same
          exact distinct.1 (same ▸ List.mem_map_of_mem later)
        rw [List.find?_cons_of_neg (by simpa using other)]
        exact ih distinct.2 later

theorem get?_update (key other : Text) (fresh : α) (change : α → α) (registry : Registry α) :
    (registry.update key fresh change).get? other =
      if key = other then some (change ((registry.get? key).getD fresh))
      else registry.get? other := by
  obtain ⟨entries⟩ := registry
  simp only [update, get?]
  induction entries with
  | nil =>
      by_cases asked : key = other
      · simp [updateEntries, asked]
      · simp [updateEntries, asked]
  | cons entry rest ih =>
      by_cases here : entry.1 = key
      · by_cases asked : key = other
        · simp [updateEntries, here, asked]
        · simp [updateEntries, here, asked]
      · rw [updateEntries, if_neg here, List.find?_cons, List.find?_cons, List.find?_cons]
        by_cases first : entry.1 = other
        · have different : ¬ key = other := fun same => here (first.trans same.symm)
          simp [first, different]
        · simpa [first, here] using ih

def Every (holds : Text → α → Prop) (registry : Registry α) : Prop :=
  ∀ entry ∈ registry.entries, holds entry.1 entry.2

theorem every_empty (holds : Text → α → Prop) : (empty : Registry α).Every holds := by
  simp [Every, empty]

theorem every_update (holds : Text → α → Prop) (key : Text) (fresh : α) (change : α → α)
    (registry : Registry α) (every : registry.Every holds) (created : holds key (change fresh))
    (changed : ∀ value, holds key value → holds key (change value)) :
    (registry.update key fresh change).Every holds := by
  obtain ⟨entries⟩ := registry
  simp only [Every, update] at every ⊢
  induction entries with
  | nil => simpa [updateEntries] using created
  | cons entry rest ih =>
      have here := every entry List.mem_cons_self
      have later := fun other member => every other (List.mem_cons_of_mem entry member)
      rw [updateEntries]
      split
      · next same =>
          rw [same] at here
          exact List.forall_mem_cons.mpr ⟨changed entry.2 here, later⟩
      · exact List.forall_mem_cons.mpr ⟨here, ih later⟩

end Registry

end ScriptSense
