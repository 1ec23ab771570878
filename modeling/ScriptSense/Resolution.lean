import ScriptSense.Chain
import ScriptSense.Script

/-!
Where a chain leads, and what a script that is open in an editor resolves its chains with.
-/
namespace ScriptSense

/-! ### Chains

The first segment is a variable, a constructor or a free function; every later one is a member of the
object reached so far. A segment that leads nowhere ends the walk without an answer.
-/

structure Reached where
  type : Text
  object : Option Object
  callable : Option Callable
  deriving DecidableEq, Repr

structure Resolver where
  knowledge : Knowledge
  overlay : Overlay
  scope : Scope

namespace Resolver

/-- The namespace and the name of a function; the global namespace is no namespace. -/
def splitQualified (name : Text) : Option Text × Text :=
  match Text.splitLastColons? (fun _ => true) name with
  | none => (none, name)
  | some (qualifier, last) =>
      let qualifier := Text.dropColons qualifier
      (if qualifier.isEmpty then none else some qualifier, last)

def freeFunction? (name : Text) (resolver : Resolver) : Option Callable :=
  resolver.overlay.function? (splitQualified name).1 (splitQualified name).2

def constructor? (name : Text) (resolver : Resolver) : Option Callable :=
  (resolver.knowledge.object? name).bind (·.constructor)

def variableType? (name : Text) (resolver : Resolver) : Option Text :=
  (resolver.scope.typeOf? name).or ((resolver.knowledge.globalVariable? name).map (·.type))

def reach (type : Text) (callable : Option Callable) (resolver : Resolver) : Reached :=
  ⟨type, resolver.knowledge.object? (lookupName type), callable⟩

def first? (resolver : Resolver) : Segment → Option Reached
  | .access name => (resolver.variableType? name).map fun type => resolver.reach type none
  | .call name =>
      ((resolver.constructor? name).or (resolver.freeFunction? name)).map fun callable =>
        resolver.reach callable.type (some callable)

def member? (resolver : Resolver) (reached : Reached) : Segment → Option Reached
  | .access name =>
      (reached.object.bind (·.property? name)).map fun property =>
        resolver.reach property.type none
  | .call name =>
      (reached.object.bind (·.method? name)).map fun method =>
        resolver.reach method.type (some method)

def walk? (resolver : Resolver) : List Segment → Option Reached
  | [] => none
  | first :: rest => (resolver.first? first).bind fun reached => rest.foldlM resolver.member? reached

def object? (resolver : Resolver) (chain : List Segment) : Option Object :=
  (resolver.walk? chain).bind (·.object)

def callable? (resolver : Resolver) (chain : List Segment) : Option Callable :=
  (resolver.walk? chain).bind (·.callable)

def type? (resolver : Resolver) (chain : List Segment) : Option Text :=
  (resolver.walk? chain).map (·.type)

def property? (resolver : Resolver) (chain : List Segment) : Option Property :=
  match chain.getLast? with
  | some (.access name) => (resolver.object? chain.dropLast).bind (·.property? name)
  | _ => none

end Resolver

/-! ### Open scripts

An open script is held together with the scripts it includes; the file-scope variables and the
functions of all of them count in it.
-/

structure OpenScript where
  text : Text
  script : Script
  included : List Script
  deriving DecidableEq, Repr

namespace OpenScript

def ofText (text : Text) : OpenScript := ⟨text, Script.parse text, []⟩

def scripts (opened : OpenScript) : List Script := opened.script :: opened.included

def globals (opened : OpenScript) : List Declaration := opened.scripts.flatMap Script.globals

def scopeAt (offset : Nat) (opened : OpenScript) : Scope :=
  Scope.ofText (opened.script.upTo offset) opened.globals

def overlay (functions : FunctionTable) (opened : OpenScript) : Overlay :=
  Overlay.ofScripts functions opened.scripts

def resolverAt (knowledge : Knowledge) (opened : OpenScript) (offset : Nat) : Resolver :=
  ⟨knowledge, opened.overlay knowledge.functions, opened.scopeAt offset⟩

end OpenScript

end ScriptSense
