import ScriptSense.Files
import ScriptSense.Knowledge

/-!
The engine's manual as it stands on disk.
-/
namespace ScriptSense

/-! ### Lines

A line holds one declaration; a name reaches up to the last `(` from which the line can still end as
it must, and a namespace is as short as the rest of the line allows.
-/

structure FunctionLine where
  qualifier : Option Text
  type : Text
  name : Text
  signature : Signature
  deriving DecidableEq, Repr

namespace Manual

def isComment (line : Text) : Bool := (Text.after? "--".toList line).isSome

def declarationLines (text : Text) : List Text :=
  ((Text.lines text).map Text.trim).filter fun line => !line.isEmpty && !isComment line

/-- Parameters within one line, from text held last character first that ends in `)`. -/
def closed? : Text → Option Text
  | ')' :: reversed => if reversed.contains '\n' then none else some reversed.reverse
  | _ => none

def upToEnd? (text : Text) : Option Text := closed? text.reverse

def upToEndOrConst? (text : Text) : Option Text :=
  let behindConst := (Text.after? "const".toList.reverse text.reverse).bind fun rest =>
    (Text.afterSome? isBlank rest).bind closed?
  (upToEnd? text).or behindConst

/-- Splits the word at the start of a text at its last `(` behind which `next` succeeds. -/
def splitParen? {α : Type} (next : Text → Option α) : Text → Option (Text × α)
  | [] => none
  | first :: rest =>
      if isBlank first then none
      else
        match splitParen? next rest with
        | some (word, found) => some (first :: word, found)
        | none => if first = '(' then (next rest).map fun found => ([], found) else none

def nameAndParameters? (next : Text → Option Text) : Text → Option (Text × Text)
  | [] => none
  | first :: rest =>
      if isBlank first then none
      else (splitParen? next rest).map fun (word, parameters) => (first :: word, parameters)

/-- Like `nameAndParameters?`, behind a `::` that is left out of the name if it can be. -/
def globalName? (next : Text → Option Text) (text : Text) : Option (Text × Text) :=
  ((Text.after? "::".toList text).bind (nameAndParameters? next)).or (nameAndParameters? next text)

/-- The ways to split the word at the start of a text at a `::`, the shortest left side first. -/
def colonSplits : Text → List (Text × Text)
  | [] => []
  | first :: rest =>
      if isBlank first then []
      else
        let later := (colonSplits rest).map fun (left, right) => (first :: left, right)
        match rest with
        | ':' :: ':' :: right => ([first], right) :: later
        | _ => later

def firstWord? (line : Text) : Option (Text × Text) := do
  let (word, rest) ← Text.run? (!isBlank ·) line
  let rest ← Text.afterSome? isBlank rest
  return (word, rest)

/-- Reads `type [namespace::][::]name(parameters) [const]`. -/
def functionLine? (line : Text) : Option FunctionLine := do
  let (type, rest) ← firstWord? line
  let inNamespace := (colonSplits rest).findSome? fun (qualifier, rest) =>
    (globalName? upToEndOrConst? rest).map fun found => (some qualifier, found)
  let global := (globalName? upToEndOrConst? rest).map fun found => (none, found)
  let (qualifier, name, parameters) ← inNamespace.or global
  return ⟨qualifier, type, name, Signature.parse parameters⟩

def hookLine? (line : Text) : Option Callable := do
  let (type, rest) ← firstWord? line
  let (name, parameters) ← nameAndParameters? upToEnd? rest
  return Callable.hook type name (Signature.parse parameters)

def wordAndLast? (line : Text) : Option (Text × Text) := do
  let (word, last) ← firstWord? line
  if !last.isEmpty && last.all (!isBlank ·) then some (word, last) else none

/-- The namespace of a word, up to the last `::` with a type behind it. -/
def splitType : Text → Option Text × Text
  | [] => (none, [])
  | first :: rest =>
      match Text.splitLastColons? (!·.isEmpty) rest with
      | some (qualifier, type) => (some (first :: qualifier), type)
      | none => (none, first :: rest)

def variableLine? (line : Text) : Option Variable := do
  let (word, name) ← wordAndLast? line
  return ⟨(splitType word).1, (splitType word).2, name⟩

/-- Reads lines under the namespace that is open: a word at the start of a line opens one, an
indented word is a member, and lines of several words are passed over. -/
def enumMembersIn : Text → List Text → List EnumMember
  | _, [] => []
  | opened, line :: rest =>
      let line := Text.trimEnd line
      let word := Text.trimStart line
      if line.isEmpty || isComment line || word.any isBlank then enumMembersIn opened rest
      else if word.length = line.length then enumMembersIn word rest
      else ⟨opened, word⟩ :: enumMembersIn opened rest

def enumMembers (text : Text) : List EnumMember := enumMembersIn [] (Text.lines text)

def constructorLine? (line : Text) : Option Signature := do
  let rest ← Text.after? "<constructor>(".toList line
  let parameters ← upToEnd? rest
  return Signature.parse parameters

def methodLine? (line : Text) : Option (Text × Text × Signature) := do
  let (type, rest) ← firstWord? line
  let (name, parameters) ← globalName? upToEndOrConst? rest
  return (type, name, Signature.parse parameters)

def addMember (object : Object) (line : Text) : Object :=
  match constructorLine? line with
  | some signature => object.addConstructor signature
  | none =>
      match methodLine? line with
      | some (type, name, signature) => object.addMethod type name signature
      | none =>
          match wordAndLast? line with
          | some (type, name) => object.addProperty type name
          | none => object

def object (name text : Text) : Object :=
  (declarationLines text).foldl addMember (Object.ofName name)

end Manual

/-! ### The folder

There is one file for each kind of declaration and a folder with one file for each object. A file
that is missing or is not text documents nothing; loading fails only if the objects' folder is a file.
-/

inductive LoadError where
  | notFolder (path : Text)
  deriving DecidableEq, Repr

def LoadError.message : LoadError → Text
  | notFolder path => "IO error reading ".toList ++ path ++ ": Not a directory (os error 20)".toList

namespace Manual

/-- An object file of this stem documents no type. -/
def anyObject : Text := "any".toList

def addFunctionLine (table : FunctionTable) (line : FunctionLine) : FunctionTable :=
  FunctionTable.addSignature line.qualifier line.type line.name line.signature table

def functions (text : Text) : FunctionTable :=
  ((declarationLines text).filterMap functionLine?).foldl addFunctionLine Registry.empty

def hooks (text : Text) : List Callable := (declarationLines text).filterMap hookLine?

def globalVariables (text : Text) : List Variable := (declarationLines text).filterMap variableLine?

def isObjectFile (name : Text) : Bool :=
  Path.hasExtension "txt".toList name && Text.isIdentifier (Path.stem name) &&
    Path.stem name != anyObject

def readObject? (files : FileTree) (folder : Location) (name : Text) : Option Object :=
  match files.node? (folder ++ [name]) with
  | some (.text content) => some (object (Path.stem name) content)
  | _ => none

def objectsIn (files : FileTree) (folder : Location) : List Object :=
  let documented := (files.names folder).filter isObjectFile
  (documented.mergeSort fun left right => !decide (Path.stem right < Path.stem left)).filterMap
    (readObject? files folder)

def objects (files : FileTree) (path : Text) : Except LoadError (List Object) :=
  match files.locate path with
  | .error .missing => .ok []
  | .error .belowFile => .error (.notFolder path)
  | .ok folder =>
      if files.node? folder = some .folder then .ok (objectsIn files folder)
      else .error (.notFolder path)

def readOrEmpty (files : FileTree) (folder name : Text) : Text :=
  (files.read? (Path.join folder name)).getD []

def load (files : FileTree) (folder : Text) : Except LoadError Knowledge := do
  let objects ← objects files (Path.join folder "Objects".toList)
  let documented : Knowledge :=
    ⟨Registry.empty,
      functions (readOrEmpty files folder "Functions.txt".toList),
      globalVariables (readOrEmpty files folder "Variables.txt".toList),
      enumMembers (readOrEmpty files folder "Enums.txt".toList),
      hooks (readOrEmpty files folder "Hooks.txt".toList)⟩
  return objects.foldl (fun knowledge object => knowledge.insertObject object) documented

end Manual

end ScriptSense
