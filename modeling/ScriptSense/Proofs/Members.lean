import ScriptSense.Answer
import ScriptSense.Proofs.Registry
import ScriptSense.Proofs.Resolution

/-!
Completion after a `.` and the resolution of chains agree. An object lists its methods in a table and
its properties in a list; a chain finds them there by name. Both are the same members because every
way to build an object keeps each method under its own name.
-/
namespace ScriptSense

inductive Object.Built : Object → Prop where
  | ofName (name : Text) : Built (Object.ofName name)
  | addProperty {object : Object} (built : Built object) (type name : Text) :
      Built (object.addProperty type name)
  | addMethod {object : Object} (built : Built object) (type name : Text) (signature : Signature) :
      Built (object.addMethod type name signature)
  | addConstructor {object : Object} (built : Built object) (signature : Signature) :
      Built (object.addConstructor signature)

inductive Knowledge.Built : Knowledge → Prop where
  | empty : Built Knowledge.empty
  | insertObject {knowledge : Knowledge} (built : Built knowledge) {object : Object}
      (made : object.Built) : Built (knowledge.insertObject object)
  | addFunction {knowledge : Knowledge} (built : Built knowledge) (qualifier : Option Text)
      (type name : Text) (signature : Signature) :
      Built (knowledge.addFunction qualifier type name signature)
  | insertFunction {knowledge : Knowledge} (built : Built knowledge) (key : Text)
      (callable : Callable) : Built (knowledge.insertFunction key callable)
  | addVariable {knowledge : Knowledge} (built : Built knowledge) (declared : Variable) :
      Built (knowledge.addVariable declared)
  | addEnumMember {knowledge : Knowledge} (built : Built knowledge) (member : EnumMember) :
      Built (knowledge.addEnumMember member)
  | addHook {knowledge : Knowledge} (built : Built knowledge) (hook : Callable) :
      Built (knowledge.addHook hook)

namespace Object

def MethodNamed (name : Text) (callable : Callable) : Prop :=
  callable.name = name ∧ ∃ owner, callable.kind = .method owner

structure Consistent (object : Object) : Prop where
  distinct : object.methods.keys.Nodup
  named : object.methods.Every MethodNamed

theorem addMethod_consistent (type name : Text) (signature : Signature) (object : Object)
    (consistent : object.Consistent) : (object.addMethod type name signature).Consistent where
  distinct := Registry.nodup_keys_update _ _ _ _ consistent.distinct
  named :=
    Registry.every_update _ _ _ _ _ consistent.named ⟨rfl, object.name, rfl⟩ fun _ named => named

theorem Built.consistent {object : Object} (built : object.Built) : object.Consistent := by
  induction built with
  | ofName name => exact ⟨List.nodup_nil, Registry.every_empty _⟩
  | addProperty _ type name ih => exact ⟨ih.distinct, ih.named⟩
  | @addMethod object _ type name signature ih =>
      exact addMethod_consistent type name signature object ih
  | addConstructor _ signature ih => exact ⟨ih.distinct, ih.named⟩

end Object

namespace Knowledge

theorem Built.every_object {knowledge : Knowledge} (built : knowledge.Built) :
    knowledge.objects.Every fun _ object => object.Built := by
  induction built with
  | empty => exact Registry.every_empty _
  | insertObject _ made ih => exact Registry.every_update _ _ _ _ _ ih made fun _ _ => made
  | addFunction _ qualifier type name signature ih => exact ih
  | insertFunction _ key callable ih => exact ih
  | addVariable _ declared ih => exact ih
  | addEnumMember _ member ih => exact ih
  | addHook _ hook ih => exact ih

theorem Built.object? {knowledge : Knowledge} (built : knowledge.Built) (name : Text)
    (object : Object) (found : knowledge.object? name = some object) : object.Built :=
  built.every_object (name, object) (Registry.mem_of_get? name object knowledge.objects found)

end Knowledge

theorem Resolver.object?_built (resolver : Resolver) (built : resolver.knowledge.Built)
    (chain : List Segment) (object : Object) (found : resolver.object? chain = some object) :
    object.Built := by
  rw [resolver.object?_of_type?] at found
  obtain ⟨type, _, documented⟩ := Option.bind_eq_some_iff.mp found
  exact built.object? (lookupName type) object documented

namespace Completion

theorem ofCallable_method (name : Text) (callable : Callable)
    (named : Object.MethodNamed name callable) :
    (ofCallable callable).label = name ∧ (ofCallable callable).kind = .method := by
  obtain ⟨same, owner, kind⟩ := named
  simp [ofCallable, Callable.hookSnippet?, kind, same]

def ofMethods (object : Object) : List Completion := object.methods.values.map ofCallable

def ofProperties (object : Object) : List Completion := object.properties.map ofProperty

theorem ofMethods_kind (object : Object) (consistent : object.Consistent) :
    ∀ item ∈ ofMethods object, item.kind = .method := by
  intro item offered
  obtain ⟨callable, member, rfl⟩ := List.mem_map.mp offered
  obtain ⟨entry, listed, rfl⟩ := List.mem_map.mp member
  exact (ofCallable_method entry.1 entry.2 (consistent.named entry listed)).2

theorem ofProperties_kind (object : Object) : ∀ item ∈ ofProperties object, item.kind = .property := by
  intro item offered
  obtain ⟨property, _, rfl⟩ := List.mem_map.mp offered
  rfl

theorem ofMethods_labels (object : Object) (consistent : object.Consistent) :
    (ofMethods object).map (·.label) = object.methods.keys := by
  rw [ofMethods, Registry.values, Registry.keys, List.map_map, List.map_map]
  exact List.map_congr_left fun entry listed =>
    (ofCallable_method entry.1 entry.2 (consistent.named entry listed)).1

theorem mem_ofProperties_labels (object : Object) (name : Text) :
    name ∈ (ofProperties object).map (·.label) ↔ (object.property? name).isSome = true := by
  rw [ofProperties, List.map_map, Object.property?, List.find?_isSome, List.mem_map]
  simp [ofProperty]

end Completion

/-- Methods and properties are the members by which a chain can go on, each method once. -/
structure OffersMembers (resolver : Resolver) (chain : List Segment)
    (methods properties : List Completion) : Prop where
  methods_kind : ∀ item ∈ methods, item.kind = .method
  properties_kind : ∀ item ∈ properties, item.kind = .property
  once : (methods.map (·.label)).Nodup
  callable : ∀ name, name ∈ methods.map (·.label) ↔
    (resolver.callable? (chain ++ [.call name])).isSome = true
  property : ∀ name, name ∈ properties.map (·.label) ↔
    (resolver.property? (chain ++ [.access name])).isSome = true
  nothing : resolver.object? chain = none → methods = [] ∧ properties = []

section Offers

variable (resolver : Resolver) (chain : List Segment) (some_segment : chain ≠ [])
include some_segment

theorem offers_nothing (unknown : resolver.object? chain = none) :
    OffersMembers resolver chain [] [] where
  methods_kind := by simp
  properties_kind := by simp
  once := List.nodup_nil
  callable name := by simp [resolver.callable?_call chain name some_segment, unknown]
  property name := by simp [resolver.property?_access chain name, unknown]
  nothing _ := ⟨rfl, rfl⟩

theorem offers_members (object : Object) (consistent : object.Consistent)
    (found : resolver.object? chain = some object) :
    OffersMembers resolver chain (Completion.ofMethods object) (Completion.ofProperties object) where
  methods_kind := Completion.ofMethods_kind object consistent
  properties_kind := Completion.ofProperties_kind object
  once := by
    rw [Completion.ofMethods_labels object consistent]
    exact consistent.distinct
  callable name := by
    rw [Completion.ofMethods_labels object consistent,
      resolver.callable?_call chain name some_segment, found]
    exact (Registry.get?_isSome name object.methods).symm
  property name := by
    rw [resolver.property?_access chain name, found]
    exact Completion.mem_ofProperties_labels object name
  nothing unknown := by
    rw [found] at unknown
    cases unknown

end Offers

namespace OpenScript

def receiver (opened : OpenScript) (cursor : Cursor) : List Segment :=
  Chain.ofText (opened.script.upTo (cursor.offset opened.text))

theorem completions_member (knowledge : Knowledge) (opened : OpenScript) (cursor : Cursor)
    (code : endsInTrivia (cursor.before opened.text) = false)
    (site : CompletionSite.ofLine (cursor.lineBefore opened.text) = .member) :
    opened.completions knowledge cursor =
      match (opened.resolverAt knowledge (cursor.offset opened.text)).object?
        (opened.receiver cursor) with
      | some object => Completion.ofMethods object ++ Completion.ofProperties object
      | none => [] := by
  rw [completions, if_neg (by simp [code])]
  simp only [site]
  rfl

/-- What is offered after a `.` are the methods and then the properties by which the chain before
it can go on, and nothing else. -/
theorem members_offered (knowledge : Knowledge) (built : knowledge.Built) (opened : OpenScript)
    (cursor : Cursor) (code : endsInTrivia (cursor.before opened.text) = false)
    (site : CompletionSite.ofLine (cursor.lineBefore opened.text) = .member)
    (some_segment : opened.receiver cursor ≠ []) :
    ∃ methods properties : List Completion,
      opened.completions knowledge cursor = methods ++ properties ∧
        OffersMembers (opened.resolverAt knowledge (cursor.offset opened.text))
          (opened.receiver cursor) methods properties := by
  let resolver := opened.resolverAt knowledge (cursor.offset opened.text)
  have offered := completions_member knowledge opened cursor code site
  cases found : resolver.object? (opened.receiver cursor) with
  | none =>
      rw [found] at offered
      exact ⟨[], [], offered, offers_nothing resolver _ some_segment found⟩
  | some object =>
      rw [found] at offered
      have made := resolver.object?_built built (opened.receiver cursor) object found
      exact ⟨_, _, offered, offers_members resolver _ some_segment object made.consistent found⟩

-- The method has two overloads; one property is documented twice, the other is a method as well.
theorem members_offered_overloaded :
    ∃ knowledge : Knowledge, ∃ opened : OpenScript, ∃ methods properties : List Completion,
      knowledge.Built ∧ opened.text = "void f(Blob@ b) \x7b b.ge".toList ∧
        opened.receiver ⟨0, 23⟩ = [.access "b".toList] ∧
        opened.completions knowledge ⟨0, 23⟩ = methods ++ properties ∧
        (methods ++ properties).map (·.label) = ["get", "x", "get", "x"].map String.toList ∧
        OffersMembers (opened.resolverAt knowledge 23) [.access "b".toList] methods properties := by
  let opened : OpenScript := OpenScript.ofText "void f(Blob@ b) \x7b b.ge".toList
  let get : Text := "get".toList
  let x : Text := "x".toList
  let overloaded : Object :=
    ((Object.ofName "Blob".toList).addMethod "Blob@".toList get (Signature.parse "int n".toList)).addMethod
      "void".toList get Signature.empty
  let blob : Object :=
    ((overloaded.addProperty "int".toList x).addProperty "Blob".toList get).addProperty "f32".toList x
  have made : overloaded.Built := .addMethod (.addMethod (.ofName _) _ _ _) _ _ _
  have built : (Knowledge.empty.insertObject blob).Built :=
    .insertObject .empty (.addProperty (.addProperty (.addProperty made _ _) _ _) _ _)
  have chain : opened.receiver ⟨0, 23⟩ = [.access "b".toList] := by decide +kernel
  obtain ⟨methods, properties, offered, members⟩ := members_offered _ built opened ⟨0, 23⟩
    (by decide +kernel) (by decide +kernel) (by rw [chain]; simp)
  rw [chain] at members
  refine ⟨_, opened, methods, properties, built, rfl, chain, offered, ?_, members⟩
  rw [← offered]
  decide +kernel

end OpenScript

end ScriptSense
