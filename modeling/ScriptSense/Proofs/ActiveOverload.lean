import ScriptSense.Answer
import ScriptSense.Proofs.Grouping

/-!
The overload that signature help marks as active. Help lists the overloads of a callable in ascending
order, so the first one with a parameter for the argument being written has the fewest parameters among
those, and was added before all others of its count.
-/
namespace ScriptSense

namespace Help

/-- Of the overloads that were added and have a parameter for the argument, one with the fewest
parameters, and of those the first that was added. -/
structure Tightest (added : List Signature) (active : Nat) (chosen : Signature × Nat) : Prop where
  listed : chosen ∈ added.zipIdx
  reaches : active < chosen.1.arity
  fewest : ∀ other ∈ added, active < other.arity → chosen.1.arity ≤ other.arity
  earliest : ∀ other ∈ added.zipIdx, other.1.arity = chosen.1.arity → chosen.2 ≤ other.2

def reaches (active : Nat) (overload : Signature × Nat) : Bool := active < overload.1.arity

/-- In the stable order all others that reach the argument come behind the first of them. -/
theorem first_reaching (order : List (Signature × Nat)) (sorted : order.Pairwise Callable.Sooner)
    (active index : Nat) (found : order.findIdx? (reaches active) = some index) :
    ∃ chosen, order[index]? = some chosen ∧ reaches active chosen = true ∧
      ∀ other ∈ order, reaches active other = true → other = chosen ∨ Callable.Sooner chosen other := by
  induction order generalizing index with
  | nil => cases found
  | cons first rest ih =>
      obtain ⟨before, later⟩ := List.pairwise_cons.mp sorted
      rw [List.findIdx?_cons] at found
      split at found
      · next here =>
          obtain rfl := Option.some.inj found
          refine ⟨first, rfl, here, fun other member _ => ?_⟩
          exact (List.mem_cons.mp member).imp_right (before other)
      · next short =>
          obtain ⟨behind, foundBehind, rfl⟩ := Option.map_eq_some_iff.mp found
          obtain ⟨chosen, place, reached, least⟩ := ih later behind foundBehind
          refine ⟨chosen, place, reached, fun other member enough => ?_⟩
          rcases List.mem_cons.mp member with rfl | inRest
          · exact absurd enough short
          · exact least other inRest enough

theorem tightest_first {added : List Signature} {order : List (Signature × Nat)}
    (stable : Callable.StableOrder added order) (active : Nat) (chosen : Signature × Nat)
    (listed : chosen ∈ order) (reached : reaches active chosen = true)
    (least : ∀ other ∈ order, reaches active other = true →
      other = chosen ∨ Callable.Sooner chosen other) : Tightest added active chosen := by
  have enough : active < chosen.1.arity := of_decide_eq_true reached
  refine ⟨stable.every.mem_iff.mp listed, enough, fun other member enoughOther => ?_, ?_⟩
  · obtain ⟨overload, inOrder, rfl⟩ := List.mem_map.mp (stable.signatures_perm.mem_iff.mpr member)
    rcases least overload inOrder (decide_eq_true enoughOther) with rfl | sooner
    · exact Nat.le_refl _
    · rcases sooner with fewer | ⟨same, _⟩
      · exact Nat.le_of_lt fewer
      · exact Nat.le_of_eq same
  · intro other member same
    have enoughOther : reaches active other = true := decide_eq_true (same ▸ enough)
    rcases least other (stable.every.mem_iff.mpr member) enoughOther with rfl | sooner
    · exact Nat.le_refl _
    · rcases sooner with fewer | ⟨_, number⟩
      · omega
      · exact Nat.le_of_lt number

/-- Help for a callable that overloads were added to lists them in their stable order, each with its own
parameters. The active one is the tightest that still has the argument, and else the first. -/
theorem activeOverload_tightest (kind : CallableKind) (type name : Text) (added : List Signature)
    (active : Nat) :
    let callable := Callable.withOverloads ⟨kind, type, name, []⟩ added
    let help := ofCallable callable active
    ∃ order, Callable.StableOrder added order ∧
      help.overloads = order.map (fun overload =>
        ⟨callable.signatureLabel overload.1, overload.1.labels, active⟩) ∧
      help.activeParameter = active ∧
      ((∃ signature ∈ added, active < signature.arity) →
        ∃ chosen, order[help.activeOverload]? = some chosen ∧ Tightest added active chosen) ∧
      ((∀ signature ∈ added, signature.arity ≤ active) → help.activeOverload = 0) ∧
      (added ≠ [] → help.activeOverload < help.overloads.length) := by
  intro callable help
  have made : callable.signatures = Callable.byArity added :=
    congrArg Callable.signatures (Callable.withOverloads_fresh _ rfl added)
  obtain ⟨order, stable, sorted⟩ := Callable.byArity_stablySorted added
  rw [sorted] at made
  have overloads : help.overloads = order.map (fun overload =>
      ⟨callable.signatureLabel overload.1, overload.1.labels, active⟩) := by
    change callable.signatures.map _ = _
    rw [made, List.map_map]
    rfl
  have chosen : help.activeOverload = (order.findIdx? (reaches active)).getD 0 := by
    change (callable.signatures.findIdx? _).getD 0 = _
    rw [made, List.findIdx?_map]
    rfl
  rw [overloads, chosen]
  refine ⟨order, stable, rfl, rfl, ?_, ?_, ?_⟩
  · rintro ⟨signature, member, enough⟩
    obtain ⟨overload, inOrder, rfl⟩ := List.mem_map.mp (stable.signatures_perm.mem_iff.mpr member)
    cases found : order.findIdx? (reaches active) with
    | none =>
        have short := List.findIdx?_eq_none_iff.mp found overload inOrder
        exact absurd enough (of_decide_eq_false short)
    | some index =>
        obtain ⟨first, place, reached, least⟩ := first_reaching order stable.sorted active index found
        exact ⟨first, place, tightest_first stable active first (List.mem_of_getElem? place) reached least⟩
  · intro short
    have none : order.findIdx? (reaches active) = none := by
      refine List.findIdx?_eq_none_iff.mpr fun overload member => ?_
      have listed := stable.signatures_perm.mem_iff.mp (List.mem_map_of_mem member)
      exact decide_eq_false (Nat.not_lt.mpr (short overload.1 listed))
    rw [none]
    rfl
  · intro some_overload
    have length : order.length = added.length := by
      rw [stable.every.length_eq, List.length_zipIdx]
    rw [List.length_map, length]
    cases found : order.findIdx? (reaches active) with
    | none => exact List.length_pos_iff.mpr some_overload
    | some index =>
        obtain ⟨bound, _⟩ := List.findIdx?_eq_some_iff_getElem.mp found
        exact length ▸ bound

-- Of the two overloads with two parameters the one that was added first is active.
example :
    let added := ["int a, int b", "f32 a", "f32 a, f32 b", ""].map fun list => Signature.parse list.toList
    let callable := Callable.withOverloads (Callable.function none "void".toList "f".toList) added
    let chosen (active : Nat) := (ofCallable callable active).activeOverload
    callable.signatureLabels = ["void f()", "void f(f32 a)", "void f(int a, int b)",
      "void f(f32 a, f32 b)"].map String.toList ∧ [0, 1, 2].map chosen = [1, 2, 0] := by
  decide

end Help

end ScriptSense
