import ScriptSense.Layout

/-!
Parameters, and the list of them that an overload has.
-/
namespace ScriptSense

/-! ### Parameters

The manual and scripts write `[const] type [&in | &out | &inout | &] [name] [= default]`. `parse?`
reads such a parameter and `render` writes it in one canonical spacing.
-/

/-- How an argument is passed. A bare `&` means both ways. -/
inductive Passing where
  | byValue
  | input
  | output
  | inputOutput
  deriving DecidableEq, Repr

namespace Passing

def ofWord? (word : Text) : Option Passing :=
  if word = [] ∨ word = "inout".toList then some inputOutput
  else if word = "in".toList then some input
  else if word = "out".toList then some output
  else none

def mark : Passing → Text
  | byValue => []
  | input => "&in".toList
  | output => "&out".toList
  | inputOutput => "&inout".toList

end Passing

/-- A declared parameter. The type is kept as spelled; the name is empty where it is omitted. -/
structure Parameter where
  isConst : Bool
  type : Text
  passing : Passing
  name : Text
  default : Option Text
  deriving DecidableEq, Repr

namespace Parameter

def hasName (parameter : Parameter) : Bool := !parameter.name.isEmpty

def defaultOf : Text → Option Text
  | [] => none
  | _ :: value => if (Text.trim value).isEmpty then none else some (Text.trim value)

def splitConst (declared : Text) : Bool × Text :=
  match Text.after? "const".toList declared with
  | some (first :: rest) =>
      if isBlank first then (true, Text.trimStart rest) else (false, declared)
  | _ => (false, declared)

/-- Type, passing and name. The name behind `&` may follow a qualifier; without `&` it is the last
word, if that is an identifier and something stands before it. -/
def splitName (declared : Text) : Text × Passing × Text :=
  match declared.span (· != '&') with
  | (type, _ :: behind) =>
      let behind := Text.trimStart behind
      let (word, rest) := behind.span isPlainChar
      match Passing.ofWord? word with
      | some passing => (Text.trim type, passing, Text.trim rest)
      | none => (Text.trim type, .inputOutput, Text.trim behind)
  | (_, []) =>
      let last := Text.takeEndWhile (!isBlank ·) declared
      let front := Text.dropEndWhile (!isBlank ·) declared
      if !front.isEmpty && Text.isIdentifier last then (Text.trim front, .byValue, last)
      else (Text.trim declared, .byValue, [])

def parse? (text : Text) : Option Parameter :=
  let (declared, assigned) := text.span (· != '=')
  let (isConst, declared) := splitConst (attachHandles (Text.trim declared))
  let (type, passing, name) := splitName declared
  if type.isEmpty || (!name.isEmpty && !Text.isIdentifier name) then none
  else some ⟨isConst, type, passing, name, defaultOf assigned⟩

/-- Names by position: `a` to `z`, then `a26`, `a27` and so on. -/
def placeholder (index : Nat) : Text :=
  if index < 26 then [Char.ofNat ('a'.toNat + index)] else 'a' :: Nat.toDigits 10 index

def named (index : Nat) (parameter : Parameter) : Parameter :=
  if parameter.hasName then parameter else { parameter with name := placeholder index }

def render (parameter : Parameter) : Text :=
  (if parameter.isConst then "const ".toList else []) ++ parameter.type ++
    (if parameter.passing = .byValue then [] else ' ' :: parameter.passing.mark) ++
    (if parameter.hasName then ' ' :: parameter.name else []) ++
    match parameter.default with
    | none => []
    | some value => " = ".toList ++ value

end Parameter

/-! ### Lists

A list is split at the commas outside of brackets; the kinds of bracket are not told apart, and a
closing bracket too many changes nothing.
-/

def depthAfter (depth : Nat) (c : Char) : Nat :=
  if c = '(' ∨ c = '[' ∨ c = '{' ∨ c = '<' then depth + 1
  else if c = ')' ∨ c = ']' ∨ c = '}' ∨ c = '>' then depth - 1
  else depth

def splitCommas : Nat → Text → List Text
  | _, [] => [[]]
  | depth, first :: rest =>
      if first = ',' ∧ depth = 0 then [] :: splitCommas 0 rest
      else
        match splitCommas (depthAfter depth first) rest with
        | [] => [[first]]
        | piece :: pieces => (first :: piece) :: pieces

def splitParameters (text : Text) : List Text := (splitCommas 0 text).map Text.trim

structure Signature where
  parameters : List Parameter
  deriving DecidableEq, Repr

namespace Signature

def empty : Signature := ⟨[]⟩

/-- Reads a list without its parentheses. Pieces that declare nothing are left out before the
unnamed parameters get their placeholders. -/
def parse (list : Text) : Signature :=
  ⟨((splitParameters list).filterMap Parameter.parse?).mapIdx Parameter.named⟩

def arity (signature : Signature) : Nat := signature.parameters.length

def labels (signature : Signature) : List Text := signature.parameters.map Parameter.render

def render (signature : Signature) : Text := ", ".toList.intercalate signature.labels

end Signature

end ScriptSense
