import ScriptSense.Proofs.FirstUse
import ScriptSense.Proofs.Overload

/-!
Overloads that are added one after another, to one callable or to a table of them. The first overload
under a key begins the callable and describes it, all of them together are its overloads, stably sorted
by their parameter counts, and the keys stand in the order of their first use. The functions of a table,
the methods of an object and its constructor are all made in this way.
-/
namespace ScriptSense

namespace Callable

def withOverloads (callable : Callable) (added : List Signature) : Callable :=
  added.foldl (fun callable signature => callable.addSignature signature) callable

/-- Of two additions, each with the number of those made before it, the first has fewer parameters, or
as many and was made sooner. -/
def Sooner (one two : Signature × Nat) : Prop :=
  one.1.arity < two.1.arity ∨ one.1.arity = two.1.arity ∧ one.2 < two.2

structure StableOrder (added : List Signature) (order : List (Signature × Nat)) : Prop where
  every : order.Perm added.zipIdx
  sorted : order.Pairwise Sooner

def StablySorted (added sorted : List Signature) : Prop :=
  ∃ order, StableOrder added order ∧ sorted = order.map (·.1)

theorem StableOrder.signatures_perm {added : List Signature} {order : List (Signature × Nat)}
    (stable : StableOrder added order) : (order.map (·.1)).Perm added := by
  have every := stable.every.map Prod.fst
  rwa [List.zipIdx_map_fst] at every

theorem byArity_stablySorted (added : List Signature) : StablySorted added (byArity added) := by
  let fits : Signature → Signature → Bool := fun first second => first.arity ≤ second.arity
  let order := added.zipIdx.mergeSort (List.zipIdxLE fits)
  have every : order.Perm added.zipIdx := List.mergeSort_perm _ _
  have ascending : order.Pairwise fun one two => List.zipIdxLE fits one two = true :=
    List.pairwise_mergeSort (List.zipIdxLE_trans arity_trans) (List.zipIdxLE_total arity_total) _
  have numbers : (order.map (·.2)).Nodup := by
    refine ((every.map (·.2)).nodup_iff).mpr ?_
    rw [List.zipIdx_map_snd]
    exact List.nodup_range'
  have apart : order.Pairwise fun one two => one.2 ≠ two.2 := List.pairwise_map.mp numbers
  refine ⟨order, ⟨every, (ascending.and apart).imp fun {one two} both => ?_⟩, ?_⟩
  · obtain ⟨before, other⟩ := both
    simp only [List.zipIdxLE, fits, decide_eq_true_eq] at before
    unfold Sooner
    split at before
    · split at before
      · have number : one.2 ≤ two.2 := by simpa using before
        omega
      · omega
    · cases before
  · exact List.mergeSort_zipIdx.symm

theorem withOverloads_concat (callable : Callable) (added : List Signature) (last : Signature) :
    callable.withOverloads (added ++ [last]) = (callable.withOverloads added).addSignature last :=
  List.foldl_append

/-- Adding overloads sorts them, and changes nothing else about the callable. -/
theorem withOverloads_fresh (callable : Callable) (fresh : callable.signatures = [])
    (added : List Signature) :
    callable.withOverloads added = { callable with signatures := byArity added } := by
  induction added using List.reverseRecOn with
  | nil =>
      obtain ⟨kind, type, name, signatures⟩ := callable
      obtain rfl : signatures = [] := fresh
      rw [byArity, List.mergeSort_nil]
      rfl
  | append_singleton added last ih =>
      rw [withOverloads_concat, ih, ← insertOverload_byArity]
      rfl

/-- Every callable begins without overloads; a hook has its own added at once. -/
theorem Built.gathered {callable : Callable} (built : callable.Built) :
    ∃ added, callable = withOverloads ⟨callable.kind, callable.type, callable.name, []⟩ added := by
  induction built with
  | function qualifier type name => exact ⟨[], rfl⟩
  | method owner type name => exact ⟨[], rfl⟩
  | constructor object => exact ⟨[], rfl⟩
  | hook type name signature => exact ⟨[signature], rfl⟩
  | @addSignature callable _ signature ih =>
      obtain ⟨added, made⟩ := ih
      refine ⟨added ++ [signature], ?_⟩
      rw [withOverloads_concat]
      exact congrArg (Callable.addSignature signature) made
  | @describe callable _ kind type name ih =>
      obtain ⟨added, made⟩ := ih
      refine ⟨added, ?_⟩
      rw [withOverloads_fresh _ rfl] at made ⊢
      rw [made]

end Callable

namespace Registry

section Filled

variable {α β : Type} (key : β → Text) (fresh : β → α) (change : β → α → α)

def filled (items : List β) : Registry α :=
  items.foldl (fun registry item => registry.update (key item) (fresh item) (change item)) empty

/-- What items of one key make: the first of them begins it, and each of them changes it. -/
def group? (items : List β) : Option α :=
  items.head?.map fun first => items.foldl (fun value item => change item value) (fresh first)

theorem filled_concat (items : List β) (last : β) :
    filled key fresh change (items ++ [last]) =
      (filled key fresh change items).update (key last) (fresh last) (change last) :=
  List.foldl_append

theorem keys_filled (items : List β) :
    (filled key fresh change items).keys = (items.map key).eraseDups := by
  induction items using List.reverseRecOn with
  | nil => rfl
  | append_singleton items last ih =>
      rw [filled_concat, keys_update, ih, List.map_append, List.map_singleton,
        FirstUse.eraseDups_concat]
      simp only [List.mem_eraseDups]

theorem group?_concat (items : List β) (last : β) :
    group? fresh change (items ++ [last]) =
      some (change last ((group? fresh change items).getD (fresh last))) := by
  cases items with
  | nil => rfl
  | cons first rest => simp [group?, List.foldl_append]

theorem get?_filled (items : List β) (name : Text) :
    (filled key fresh change items).get? name =
      group? fresh change (items.filter fun item => key item = name) := by
  induction items using List.reverseRecOn with
  | nil => rfl
  | append_singleton items last ih =>
      rw [filled_concat, get?_update, List.filter_append]
      by_cases here : key last = name
      · have kept : [last].filter (fun item => key item = name) = [last] := by simp [here]
        rw [if_pos here, kept, group?_concat, ← ih, here]
      · have dropped : [last].filter (fun item => key item = name) = [] := by simp [here]
        rw [if_neg here, dropped, List.append_nil, ih]

theorem group?_of_mem (items : List β) (name : Text) (value : α)
    (member : (name, value) ∈ (filled key fresh change items).entries) :
    group? fresh change (items.filter fun item => key item = name) = some value := by
  have distinct : (filled key fresh change items).keys.Nodup := by
    rw [keys_filled]
    exact FirstUse.nodup_eraseDups _
  rw [← get?_filled, get?_of_mem _ distinct (name, value) member]

end Filled

/-- In a table that overloads are added to, each entry is described by the first overload of its key and
has all of them, sorted. -/
theorem filled_overloads {β : Type} (key : β → Text) (fresh : β → Callable) (signature : β → Signature)
    (begins : ∀ item, (fresh item).signatures = []) (items : List β) (name : Text)
    (callable : Callable) (member : (name, callable) ∈
      (filled key fresh (fun item => Callable.addSignature (signature item)) items).entries) :
    ∃ first, items.find? (fun item => key item = name) = some first ∧
      callable = { fresh first with
        signatures := Callable.byArity ((items.filter fun item => key item = name).map signature) } := by
  obtain ⟨first, head, made⟩ := Option.map_eq_some_iff.mp (group?_of_mem _ _ _ items name _ member)
  refine ⟨first, List.head?_filter.symm.trans head, ?_⟩
  rw [← made, ← Callable.withOverloads_fresh _ (begins first), Callable.withOverloads, List.foldl_map]

end Registry

structure FunctionOverload where
  qualifier : Option Text
  type : Text
  name : Text
  signature : Signature

def FunctionOverload.key (overload : FunctionOverload) : Text :=
  functionKey overload.qualifier overload.name

namespace FunctionTable

def ofOverloads (overloads : List FunctionOverload) : FunctionTable :=
  overloads.foldl (fun table overload =>
    table.addSignature overload.qualifier overload.type overload.name overload.signature)
    Registry.empty

structure Groups (overloads : List FunctionOverload) (table : FunctionTable) : Prop where
  keys : table.keys = (overloads.map (·.key)).eraseDups
  entry : ∀ key function, (key, function) ∈ table.entries →
    ∃ first, overloads.find? (fun overload => overload.key = key) = some first ∧
      function.kind = .function first.qualifier ∧ function.type = first.type ∧
      function.name = first.name ∧ functionKey first.qualifier first.name = key ∧
      Callable.StablySorted
        ((overloads.filter fun overload => overload.key = key).map (·.signature)) function.signatures

theorem ofOverloads_groups (overloads : List FunctionOverload) : Groups overloads (ofOverloads overloads) where
  keys := Registry.keys_filled _ _ _ overloads
  entry key function member := by
    obtain ⟨first, found, rfl⟩ := Registry.filled_overloads FunctionOverload.key
      (fun overload => Callable.function overload.qualifier overload.type overload.name)
      (·.signature) (fun _ => rfl) overloads key function member
    have same : first.key = key := by simpa using List.find?_some found
    exact ⟨first, found, rfl, rfl, rfl, same, Callable.byArity_stablySorted _⟩

end FunctionTable

structure MethodOverload where
  type : Text
  name : Text
  signature : Signature

inductive Member where
  | property (type name : Text)
  | method (overload : MethodOverload)
  | constructor (signature : Signature)

namespace Member

def property? : Member → Option (Text × Text)
  | property type name => some (type, name)
  | _ => none

def method? : Member → Option MethodOverload
  | method overload => some overload
  | _ => none

def constructor? : Member → Option Signature
  | constructor signature => some signature
  | _ => none

end Member

namespace Object

def add (object : Object) : Member → Object
  | .property type name => object.addProperty type name
  | .method overload => object.addMethod overload.type overload.name overload.signature
  | .constructor signature => object.addConstructor signature

def ofMembers (name : Text) (members : List Member) : Object := members.foldl add (ofName name)

structure Groups (name : Text) (members : List Member) (object : Object) : Prop where
  named : object.name = name
  properties : object.properties =
    (members.filterMap Member.property?).map fun declared => ⟨name, declared.1, declared.2⟩
  keys : object.methods.keys = ((members.filterMap Member.method?).map (·.name)).eraseDups
  entry : ∀ key method, (key, method) ∈ object.methods.entries →
    ∃ first, (members.filterMap Member.method?).find? (fun overload => overload.name = key) = some first ∧
      method.kind = .method name ∧ method.type = first.type ∧ method.name = key ∧
      Callable.StablySorted (((members.filterMap Member.method?).filter fun overload =>
        overload.name = key).map (·.signature)) method.signatures
  constructor :
    match object.constructor with
    | none => members.filterMap Member.constructor? = []
    | some built => members.filterMap Member.constructor? ≠ [] ∧ built.kind = .constructor ∧
        built.type = name ∧ built.name = name ∧
        Callable.StablySorted (members.filterMap Member.constructor?) built.signatures

/-- What the members make of each part of the object, apart from the other parts. -/
theorem ofMembers_parts (name : Text) (members : List Member) :
    ofMembers name members =
      ⟨name, (members.filterMap Member.property?).map fun declared => ⟨name, declared.1, declared.2⟩,
        Registry.filled MethodOverload.name
          (fun overload => Callable.method name overload.type overload.name)
          (fun overload => Callable.addSignature overload.signature)
          (members.filterMap Member.method?),
        Registry.group? (fun _ => Callable.constructor name) Callable.addSignature
          (members.filterMap Member.constructor?)⟩ := by
  induction members using List.reverseRecOn with
  | nil => rfl
  | append_singleton members last ih =>
      rw [ofMembers, List.foldl_append, ← ofMembers, ih]
      cases last with
      | property type name =>
          simp [add, addProperty, List.filterMap_cons, Member.property?, Member.method?,
            Member.constructor?]
      | method overload =>
          simp [add, addMethod, List.filterMap_cons, Member.property?, Member.method?,
            Member.constructor?, Registry.filled_concat]
      | constructor signature =>
          simp [add, addConstructor, List.filterMap_cons, Member.property?, Member.method?,
            Member.constructor?, Registry.group?_concat]

theorem ofMembers_groups (name : Text) (members : List Member) :
    Groups name members (ofMembers name members) := by
  rw [ofMembers_parts]
  refine ⟨rfl, rfl, Registry.keys_filled _ _ _ _, fun key method member => ?_, ?_⟩
  · obtain ⟨first, found, rfl⟩ := Registry.filled_overloads MethodOverload.name
      (fun overload => Callable.method name overload.type overload.name)
      (·.signature) (fun _ => rfl) _ key method member
    have same : first.name = key := by simpa using List.find?_some found
    exact ⟨first, found, rfl, rfl, same, Callable.byArity_stablySorted _⟩
  · cases members.filterMap Member.constructor? with
    | nil => rfl
    | cons first rest =>
        have made : Registry.group? (fun _ => Callable.constructor name) Callable.addSignature
            (first :: rest) = some ((Callable.constructor name).withOverloads (first :: rest)) := rfl
        rw [made, Callable.withOverloads_fresh _ rfl]
        exact ⟨List.cons_ne_nil _ _, rfl, rfl, rfl, Callable.byArity_stablySorted _⟩

end Object

/-- Whatever is added, and in whatever order, a table of functions and an object hold one callable under
each key, described by its first overload, with all overloads of the key in ascending order of their
parameter counts; those of one count stay in the order in which they were added. -/
theorem overloads_grouped (overloads : List FunctionOverload) (name : Text) (members : List Member) :
    FunctionTable.Groups overloads (FunctionTable.ofOverloads overloads) ∧
      Object.Groups name members (Object.ofMembers name members) :=
  ⟨FunctionTable.ofOverloads_groups overloads, Object.ofMembers_groups name members⟩

-- An empty namespace has the key of none, and the first overload under the key decides.
example :
    let one : Signature := Signature.parse "int a".toList
    let other : Signature := Signature.parse "f32 b".toList
    let table := FunctionTable.ofOverloads [⟨some [], "void".toList, "print".toList, one⟩,
      ⟨some "Sound".toList, "void".toList, "Play".toList, one⟩,
      ⟨none, "int".toList, "print".toList, Signature.empty⟩,
      ⟨none, "int".toList, "print".toList, other⟩]
    table.keys = ["::print".toList, "Sound::Play".toList] ∧
      (table.get? "::print".toList).map (fun function => (function.qualifier, function.signatureLabels)) =
        some (some [], ["void print()", "void print(int a)", "void print(f32 b)"].map String.toList) := by
  decide

end ScriptSense
