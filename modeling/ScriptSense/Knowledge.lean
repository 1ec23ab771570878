import ScriptSense.Signature

/-!
What the engine's manual documents: objects with their members, free functions, variables, enum
members and hooks. Types are kept as they are spelled.
-/
namespace ScriptSense

/-! ### Names that are not callable -/

structure Variable where
  qualifier : Option Text
  type : Text
  name : Text
  deriving DecidableEq, Repr

structure Property where
  owner : Text
  type : Text
  name : Text
  deriving DecidableEq, Repr

structure EnumMember where
  qualifier : Text
  name : Text
  deriving DecidableEq, Repr

def qualified (qualifier name : Text) : Text := qualifier ++ "::".toList ++ name

def Variable.label (declared : Variable) : Text :=
  match declared.qualifier with
  | none => declared.name
  | some qualifier => qualified qualifier declared.name

def EnumMember.label (member : EnumMember) : Text := qualified member.qualifier member.name

/-- What a script writes for the member: only the outermost namespace qualifies it. -/
def EnumMember.insertion (member : EnumMember) : Text :=
  qualified (Text.beforeColons member.qualifier) member.name

/-! ### Registries

Entries by name, in the order in which the names were first used. Writing under a known name keeps
the entry's place.
-/

structure Registry (α : Type) where
  entries : List (Text × α)
  deriving DecidableEq, Repr

namespace Registry

variable {α : Type}

def empty : Registry α := ⟨[]⟩

def keys (registry : Registry α) : List Text := registry.entries.map (·.1)

def values (registry : Registry α) : List α := registry.entries.map (·.2)

def size (registry : Registry α) : Nat := registry.entries.length

def get? (key : Text) (registry : Registry α) : Option α :=
  (registry.entries.find? fun entry => entry.1 = key).map (·.2)

def contains (key : Text) (registry : Registry α) : Bool :=
  registry.entries.any fun entry => entry.1 = key

def updateEntries (key : Text) (fresh : α) (change : α → α) :
    List (Text × α) → List (Text × α)
  | [] => [(key, change fresh)]
  | entry :: rest =>
      if entry.1 = key then (key, change entry.2) :: rest
      else entry :: updateEntries key fresh change rest

def update (key : Text) (fresh : α) (change : α → α) (registry : Registry α) : Registry α :=
  ⟨updateEntries key fresh change registry.entries⟩

def insert (key : Text) (value : α) (registry : Registry α) : Registry α :=
  registry.update key value fun _ => value

end Registry

/-! ### Callables

Functions, methods, constructors and hooks. A callable owns its overloads, in ascending order of
their parameter counts; overloads of equal count stay in the order in which they were added.
-/

inductive CallableKind where
  | function (qualifier : Option Text)
  | method (owner : Text)
  | constructor
  | hook
  deriving DecidableEq, Repr

structure Callable where
  kind : CallableKind
  type : Text
  name : Text
  signatures : List Signature
  deriving DecidableEq, Repr

namespace Callable

def function (qualifier : Option Text) (type name : Text) : Callable :=
  ⟨.function qualifier, type, name, []⟩

def method (owner type name : Text) : Callable := ⟨.method owner, type, name, []⟩

def constructor (object : Text) : Callable := ⟨.constructor, object, object, []⟩

def hook (type name : Text) (signature : Signature) : Callable := ⟨.hook, type, name, [signature]⟩

def insertOverload (signature : Signature) : List Signature → List Signature
  | [] => [signature]
  | first :: rest =>
      if first.arity ≤ signature.arity then first :: insertOverload signature rest
      else signature :: first :: rest

def addSignature (signature : Signature) (callable : Callable) : Callable :=
  { callable with signatures := insertOverload signature callable.signatures }

def qualifier (callable : Callable) : Option Text :=
  match callable.kind with
  | .function qualifier => qualifier
  | _ => none

def applied (name : Text) (signature : Signature) : Text :=
  name ++ '(' :: (signature.render ++ [')'])

def signatureLabel (callable : Callable) (signature : Signature) : Text :=
  match callable.kind with
  | .constructor => applied callable.name signature
  | _ => callable.type ++ ' ' :: applied callable.name signature

def signatureLabels (callable : Callable) : List Text :=
  callable.signatures.map callable.signatureLabel

def label (callable : Callable) : Text :=
  match callable.kind with
  | .function (some qualifier) => qualified qualifier callable.name
  | .hook =>
      callable.type ++ ' ' :: applied callable.name (callable.signatures.headD Signature.empty)
  | _ => callable.name

/-- Text that implements a hook, with the cursor's place marked in its body. -/
def hookSnippet? (callable : Callable) : Option Text :=
  if callable.kind = .hook then some (callable.label ++ "\n\x7b\n\t$0\n\x7d".toList) else none

end Callable

/-! ### Tables

Members of an object refer back to it by name. Free functions are kept under `namespace::name`, with
nothing before the `::` for a function outside of namespaces.
-/

structure Object where
  name : Text
  properties : List Property
  methods : Registry Callable
  constructor : Option Callable
  deriving DecidableEq, Repr

namespace Object

def ofName (name : Text) : Object := ⟨name, [], Registry.empty, none⟩

def addProperty (type name : Text) (object : Object) : Object :=
  { object with properties := object.properties ++ [⟨object.name, type, name⟩] }

/-- Adds an overload to a method, which takes its type from the first one. -/
def addMethod (type name : Text) (signature : Signature) (object : Object) : Object :=
  { object with
    methods := object.methods.update name (Callable.method object.name type name)
      (Callable.addSignature signature) }

def addConstructor (signature : Signature) (object : Object) : Object :=
  { object with
    constructor :=
      some ((object.constructor.getD (Callable.constructor object.name)).addSignature signature) }

def property? (name : Text) (object : Object) : Option Property :=
  object.properties.find? fun property => property.name = name

def method? (name : Text) (object : Object) : Option Callable := object.methods.get? name

end Object

def functionKey (qualifier : Option Text) (name : Text) : Text :=
  qualified (qualifier.getD []) name

abbrev FunctionTable := Registry Callable

namespace FunctionTable

def function? (qualifier : Option Text) (name : Text) (table : FunctionTable) : Option Callable :=
  table.get? (functionKey qualifier name)

def addSignature (qualifier : Option Text) (type name : Text) (signature : Signature)
    (table : FunctionTable) : FunctionTable :=
  table.update (functionKey qualifier name) (Callable.function qualifier type name)
    (Callable.addSignature signature)

end FunctionTable

structure Knowledge where
  objects : Registry Object
  functions : FunctionTable
  globalVariables : List Variable
  enumMembers : List EnumMember
  hooks : List Callable
  deriving DecidableEq, Repr

namespace Knowledge

def empty : Knowledge := ⟨Registry.empty, Registry.empty, [], [], []⟩

def insertObject (object : Object) (knowledge : Knowledge) : Knowledge :=
  { knowledge with objects := knowledge.objects.insert object.name object }

def addFunction (qualifier : Option Text) (type name : Text) (signature : Signature)
    (knowledge : Knowledge) : Knowledge :=
  { knowledge with
    functions := FunctionTable.addSignature qualifier type name signature knowledge.functions }

def insertFunction (key : Text) (callable : Callable) (knowledge : Knowledge) : Knowledge :=
  { knowledge with functions := knowledge.functions.insert key callable }

def addVariable (declared : Variable) (knowledge : Knowledge) : Knowledge :=
  { knowledge with globalVariables := knowledge.globalVariables ++ [declared] }

def addEnumMember (member : EnumMember) (knowledge : Knowledge) : Knowledge :=
  { knowledge with enumMembers := knowledge.enumMembers ++ [member] }

def addHook (hook : Callable) (knowledge : Knowledge) : Knowledge :=
  { knowledge with hooks := knowledge.hooks ++ [hook] }

def object? (name : Text) (knowledge : Knowledge) : Option Object := knowledge.objects.get? name

def globalVariable? (name : Text) (knowledge : Knowledge) : Option Variable :=
  knowledge.globalVariables.find? fun declared => declared.qualifier.isNone && declared.name = name

def summary (knowledge : Knowledge) : Nat × Nat :=
  (knowledge.objects.size, knowledge.functions.size)

end Knowledge

end ScriptSense
