import Mathlib.Data.List.Sort
import ScriptSense.Proofs.Registry
import ScriptSense.Knowledge

/-!
Overloads in ascending order of their parameter counts. An overload is added behind all that have no
more parameters, so those of equal count stay in the order in which they were added: adding overloads
one after another sorts them, and the sort is stable. The order is kept by every way to build a
callable, and so by every way to build a table of functions.
-/
namespace ScriptSense

namespace Callable

def Ascending (signatures : List Signature) : Prop :=
  signatures.Pairwise fun first second => first.arity ≤ second.arity

def byArity (signatures : List Signature) : List Signature :=
  signatures.mergeSort fun first second => first.arity ≤ second.arity

def ofArity (arity : Nat) (signatures : List Signature) : List Signature :=
  signatures.filter fun signature => signature.arity = arity

theorem ofArity_append (arity : Nat) (front back : List Signature) :
    ofArity arity (front ++ back) = ofArity arity front ++ ofArity arity back :=
  List.filter_append front back

theorem arity_trans (first second third : Signature)
    (left : decide (first.arity ≤ second.arity) = true)
    (right : decide (second.arity ≤ third.arity) = true) :
    decide (first.arity ≤ third.arity) = true := by
  simp only [decide_eq_true_eq] at left right ⊢
  exact Nat.le_trans left right

theorem arity_total (first second : Signature) :
    (decide (first.arity ≤ second.arity) || decide (second.arity ≤ first.arity)) = true := by
  simp only [Bool.or_eq_true, decide_eq_true_eq]
  exact Nat.le_total _ _

theorem byArity_ascending (signatures : List Signature) : Ascending (byArity signatures) := by
  have sorted := List.pairwise_mergeSort arity_trans arity_total signatures
  simpa [Ascending, byArity] using sorted

/-- The sort is stable: overloads of one count keep their order. -/
theorem ofArity_byArity (arity : Nat) (signatures : List Signature) :
    ofArity arity (byArity signatures) = ofArity arity signatures := by
  have equal : (ofArity arity signatures).Pairwise fun first second =>
      decide (first.arity ≤ second.arity) = true := by
    refine List.pairwise_of_forall_mem_list fun first left second right => ?_
    have same := (List.mem_filter.mp left).2
    have also := (List.mem_filter.mp right).2
    simp only [decide_eq_true_eq] at same also ⊢
    omega
  have kept := List.sublist_mergeSort arity_trans arity_total equal List.filter_sublist
  have listed : (ofArity arity signatures).Sublist (ofArity arity (byArity signatures)) := by
    have again := kept.filter fun signature => decide (signature.arity = arity)
    simpa [ofArity, byArity] using again
  have count : (ofArity arity (byArity signatures)).length = (ofArity arity signatures).length :=
    ((List.mergeSort_perm signatures _).filter _).length_eq
  exact (listed.eq_of_length count.symm).symm

theorem ascending_first (first other : Signature) (rest later : List Signature)
    (order : Ascending (first :: rest))
    (same : ∀ arity, ofArity arity (first :: rest) = ofArity arity (other :: later)) :
    first.arity ≤ other.arity := by
  have listed : other ∈ ofArity other.arity (first :: rest) := by
    rw [same other.arity]
    exact List.mem_filter.mpr ⟨List.mem_cons_self, by simp⟩
  rcases List.mem_cons.mp (List.mem_filter.mp listed).1 with rfl | behind
  · exact Nat.le_refl _
  · exact (List.pairwise_cons.mp order).1 other behind

/-- In ascending order, the overloads of each count settle the whole list. -/
theorem ascending_unique (left right : List Signature) (leftOrder : Ascending left)
    (rightOrder : Ascending right) (same : ∀ arity, ofArity arity left = ofArity arity right) :
    left = right := by
  induction left generalizing right with
  | nil =>
      cases right with
      | nil => rfl
      | cons other later => simpa [ofArity] using same other.arity
  | cons first rest ih =>
      cases right with
      | nil => simpa [ofArity] using same first.arity
      | cons other later =>
          have no_fewer := ascending_first first other rest later leftOrder same
          have no_more := ascending_first other first later rest rightOrder fun arity =>
            (same arity).symm
          have equal : first.arity = other.arity := Nat.le_antisymm no_fewer no_more
          have heads := same first.arity
          simp only [ofArity, List.filter_cons, equal, decide_true, if_true, List.cons.injEq] at heads
          obtain ⟨rfl, _⟩ := heads
          congr 1
          refine ih later leftOrder.tail rightOrder.tail fun arity => ?_
          have tails := same arity
          simp only [ofArity, List.filter_cons] at tails
          split at tails
          · exact (List.cons.inj tails).2
          · exact tails

theorem byArity_of_ascending (signatures : List Signature) (order : Ascending signatures) :
    byArity signatures = signatures :=
  ascending_unique _ _ (byArity_ascending signatures) order fun arity => ofArity_byArity arity signatures

theorem mem_insertOverload (signature other : Signature) (signatures : List Signature) :
    other ∈ insertOverload signature signatures ↔ other = signature ∨ other ∈ signatures := by
  induction signatures with
  | nil => simp [insertOverload]
  | cons first rest ih =>
      rw [insertOverload]
      split
      · simp [ih, or_left_comm]
      · simp

theorem fewer_than_all (signature first : Signature) (rest : List Signature)
    (order : Ascending (first :: rest)) (larger : ¬first.arity ≤ signature.arity) :
    ∀ other ∈ first :: rest, signature.arity < other.arity := by
  intro other member
  rcases List.mem_cons.mp member with rfl | old
  · exact Nat.lt_of_not_le larger
  · have further := (List.pairwise_cons.mp order).1 other old
    omega

/-- In ascending order one place separates the overloads with no more parameters from those with more,
so halving the list finds it. An overload is added there. -/
theorem insertOverload_place (signature : Signature) (signatures : List Signature)
    (order : Ascending signatures) :
    ∃ fewer more, signatures = fewer ++ more ∧
      (∀ other ∈ fewer, other.arity ≤ signature.arity) ∧
      (∀ other ∈ more, signature.arity < other.arity) ∧
      insertOverload signature signatures = fewer ++ signature :: more := by
  induction signatures with
  | nil => exact ⟨[], [], rfl, nofun, nofun, rfl⟩
  | cons first rest ih =>
      rw [insertOverload]
      split
      · next fits =>
          obtain ⟨fewer, more, split, behind, before, made⟩ := ih order.tail
          refine ⟨first :: fewer, more, by rw [split]; rfl, ?_, before, by rw [made]; rfl⟩
          exact List.forall_mem_cons.mpr ⟨fits, behind⟩
      · next larger =>
          exact ⟨[], first :: rest, rfl, nofun, fewer_than_all signature first rest order larger, rfl⟩

theorem insertOverload_ascending (signature : Signature) (signatures : List Signature)
    (order : Ascending signatures) : Ascending (insertOverload signature signatures) := by
  obtain ⟨fewer, more, rfl, behind, before, made⟩ := insertOverload_place signature signatures order
  obtain ⟨front, back, across⟩ := List.pairwise_append.mp order
  rw [made]
  refine List.pairwise_append.mpr ⟨front, List.pairwise_cons.mpr ⟨?_, back⟩, ?_⟩
  · exact fun other member => Nat.le_of_lt (before other member)
  · exact fun other member => List.forall_mem_cons.mpr ⟨behind other member, across other member⟩

theorem ofArity_insertOverload (arity : Nat) (signature : Signature) (signatures : List Signature)
    (order : Ascending signatures) :
    ofArity arity (insertOverload signature signatures) =
      ofArity arity (signatures ++ [signature]) := by
  obtain ⟨fewer, more, rfl, _, before, made⟩ := insertOverload_place signature signatures order
  rw [made, List.append_assoc, ofArity_append, ofArity_append]
  congr 1
  by_cases here : signature.arity = arity
  · have none : ofArity arity more = [] := by
      refine List.filter_eq_nil_iff.mpr fun other member => ?_
      have larger := before other member
      simp only [decide_eq_true_eq]
      omega
    rw [ofArity_append, none, ← List.singleton_append, ofArity_append, none, List.append_nil]
    rfl
  · simp [ofArity, here]

/-- An overload that is added is sorted in behind those that were added before it. -/
theorem insertOverload_byArity (signature : Signature) (signatures : List Signature) :
    insertOverload signature (byArity signatures) = byArity (signatures ++ [signature]) := by
  have order := byArity_ascending signatures
  refine ascending_unique _ _ (insertOverload_ascending signature _ order) (byArity_ascending _) ?_
  intro arity
  rw [ofArity_insertOverload arity signature _ order, ofArity_append, ofArity_byArity,
    ofArity_byArity, ofArity_append]

/-- A callable made in one of the ways there are, whose description may be changed at will. -/
inductive Built : Callable → Prop where
  | function (qualifier : Option Text) (type name : Text) :
      Built (Callable.function qualifier type name)
  | method (owner type name : Text) : Built (Callable.method owner type name)
  | constructor (object : Text) : Built (Callable.constructor object)
  | hook (type name : Text) (signature : Signature) : Built (Callable.hook type name signature)
  | addSignature {callable : Callable} (built : Built callable) (signature : Signature) :
      Built (callable.addSignature signature)
  | describe {callable : Callable} (built : Built callable) (kind : CallableKind)
      (type name : Text) : Built { callable with kind := kind, type := type, name := name }

theorem Built.ascending {callable : Callable} (built : callable.Built) :
    Ascending callable.signatures := by
  induction built with
  | function qualifier type name => exact List.Pairwise.nil
  | method owner type name => exact List.Pairwise.nil
  | constructor object => exact List.Pairwise.nil
  | hook type name signature => exact List.pairwise_singleton _ signature
  | addSignature _ signature ih => exact insertOverload_ascending signature _ ih
  | describe _ kind type name ih => exact ih

end Callable

namespace FunctionTable

inductive Built : FunctionTable → Prop where
  | empty : Built Registry.empty
  | addSignature {table : FunctionTable} (built : Built table) (qualifier : Option Text)
      (type name : Text) (signature : Signature) :
      Built (FunctionTable.addSignature qualifier type name signature table)
  | insert {table : FunctionTable} (built : Built table) (key : Text) {callable : Callable}
      (made : callable.Built) : Built (Registry.insert key callable table)

theorem Built.distinct {table : FunctionTable} (built : Built table) : table.keys.Nodup := by
  induction built with
  | empty => exact List.nodup_nil
  | addSignature _ qualifier type name signature ih => exact Registry.nodup_keys_update _ _ _ _ ih
  | insert _ key _ ih => exact Registry.nodup_keys_update _ _ _ _ ih

theorem Built.every {table : FunctionTable} (built : Built table) :
    table.Every fun _ callable => callable.Built := by
  induction built with
  | empty => exact Registry.every_empty _
  | addSignature _ qualifier type name signature ih =>
      exact Registry.every_update _ _ _ _ _ ih (.addSignature (.function qualifier type name) signature)
        fun _ made => .addSignature made signature
  | insert _ key made ih => exact Registry.every_update _ _ _ _ _ ih made fun _ _ => made

theorem Built.ascending {table : FunctionTable} (built : Built table) (key : Text)
    (callable : Callable) (found : table.get? key = some callable) :
    Callable.Ascending callable.signatures :=
  (built.every (key, callable) (Registry.mem_of_get? key callable table found)).ascending

end FunctionTable

end ScriptSense
