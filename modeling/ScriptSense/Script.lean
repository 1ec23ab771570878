import ScriptSense.Knowledge
import ScriptSense.TypeSpelling

/-!
What a script declares: in scope at a cursor, at the level of its file, and as functions laid over the
documented ones.
-/
namespace ScriptSense

/-! ### Scopes

Every closed block before the cursor is folded away; the declarations in what is left are visible,
the last one of a name before the others. Outside of all blocks only the file's own variables are.
-/

structure Declaration where
  type : Text
  name : Text
  deriving DecidableEq, Repr

namespace Declaration

def afterReference? : Text → Option Text
  | '&' :: behind => do
      let (word, rest) ← Text.run? isWordChar (Text.trimStart behind)
      if word ∈ ["in", "out", "inout"].map String.toList then some (Text.trimStart rest) else none
  | text => some text

def endsName (c : Char) : Bool := c == ';' || c == '=' || c == ',' || c == ')'

def name? (text : Text) : Option (Text × Text) := do
  let start ← afterReference? (Text.trimStart text)
  let (name, rest) ← Text.run? isWordChar start
  let stop ← (Text.trimStart rest).head?
  if endsName stop then some (name, rest) else none

def mayFollow (c : Char) : Bool :=
  isBlank c || c == '(' || c == ',' || c == ';' || c == '{' || c == '}'

/-- Reads `[const] type [&in | &out | &inout] name` up to the end of the name. -/
def rule : Rule Declaration := fun before text =>
  if before.all mayFollow then
    (TypeSpelling.readConst? isBlank name? text).map fun (type, name, rest) => (⟨type, name⟩, rest)
  else none

def isPlausible (type : Text) : Bool := !isNonTypeKeyword (Text.leadingWord type)

end Declaration

/-- The declarations of a text in order. The search goes on right behind each name, so the
character that ends one declaration can stand before the next. -/
def declarations (text : Text) : List Declaration :=
  (findAll Declaration.rule text).filter fun found => Declaration.isPlausible found.type

/-- The locals are those of the open blocks, if the cursor is in any. -/
structure Scope where
  locals : Option (List Declaration)
  globals : List Declaration
  deriving DecidableEq, Repr

namespace Scope

def ofText (before : Text) (globals : List Declaration) : Scope :=
  let folded := fold braces before
  let locals :=
    if folded.layers.isEmpty then none else some (declarations (folded.text braces))
  ⟨locals, globals⟩

def inBlock (scope : Scope) : Bool := scope.locals.isSome

def typeOf? (name : Text) (scope : Scope) : Option Text :=
  let inner := (scope.locals.getD []).reverse.find? fun found => found.name = name
  let outer := scope.globals.find? fun found => found.name = name
  (inner.or outer).map (·.type)

def visibleNames (scope : Scope) : List Text :=
  ((scope.locals.getD scope.globals).map (·.name)).eraseDups

end Scope

/-! ### Outlines

A script prepared for analysis: its sanitized text, that text with every closed block folded away,
and the paths it includes. Paths are string literals, so they are read from a copy of the text that
still has its strings. Variables and functions are read at the starts of lines only.
-/

structure FunctionHeader where
  type : Text
  name : Text
  signature : Signature
  deriving DecidableEq, Repr

def behind? (c : Char) (text : Text) : Option Text := Text.after? [c] text

def quotedPath? (quote : Char) (text : Text) : Option (Text × Text) := do
  let inside ← behind? quote text
  let (path, rest) := inside.span fun c => c != quote && c != '\n'
  let rest ← behind? quote rest
  return (path, rest)

def includeRule : Rule Text := fun _ text => do
  let rest ← Text.after? "#include".toList text
  let rest ← Text.afterSome? isBlank rest
  (quotedPath? '"' rest).or (quotedPath? '\'' rest)

/-- The name of a file-scope variable, with the text behind the `;` or `=` after it. -/
def globalName? (text : Text) : Option (Text × Text) := do
  let (name, rest) ← Text.run? isWordChar (text.dropWhile isInlineBlank)
  let rest := rest.dropWhile isInlineBlank
  let rest ← (behind? ';' rest).or (behind? '=' rest)
  return (name, rest)

def globalRule : Rule Declaration := atLineStart fun text => do
  let (type, name, rest) ←
    TypeSpelling.readConst? isInlineBlank globalName? (text.dropWhile isInlineBlank)
  return (⟨type, name⟩, rest)

/-- Reads `type name(parameters)`, with no parentheses among the parameters. -/
def functionRule : Rule FunctionHeader := atLineStart fun text => do
  let (type, rest) ← Text.run? (!isBlank ·) (text.dropWhile isInlineBlank)
  let rest ← Text.afterSome? isInlineBlank rest
  let (name, rest) ← Text.run? isWordChar rest
  let inside ← behind? '(' (rest.dropWhile isInlineBlank)
  let (parameters, rest) := inside.span fun c => c != '(' && c != ')'
  let rest ← behind? ')' rest
  return (⟨type, name, Signature.parse parameters⟩, rest)

structure Script where
  sanitized : Text
  topLevel : Text
  includes : List Text
  deriving DecidableEq, Repr

namespace Script

def includePaths (text : Text) : List Text :=
  (findAll includeRule (foldedText braces (stripComments text))).filter (!·.isEmpty)

def parse (text : Text) : Script :=
  ⟨sanitize text, foldedText braces (sanitize text), includePaths text⟩

def upTo (offset : Nat) (script : Script) : Text := Text.takeBytes offset script.sanitized

def globals (script : Script) : List Declaration :=
  (findAll globalRule script.topLevel).filter fun found => Declaration.isPlausible found.type

def functions (script : Script) : List FunctionHeader :=
  (findAll functionRule script.topLevel).filter fun found => Declaration.isPlausible found.type

end Script

/-! ### Overlays

The documented table is shared and never changes: the first overload a script adds to a documented
function copies the function first.
-/

structure Overlay where
  base : FunctionTable
  own : FunctionTable
  deriving DecidableEq, Repr

namespace Overlay

def ofTable (base : FunctionTable) : Overlay := ⟨base, Registry.empty⟩

/-- The overlay's own table once it holds the documented function of a key, if there is one. -/
def ownWith (key : Text) (overlay : Overlay) : FunctionTable :=
  if overlay.own.contains key then overlay.own
  else
    match overlay.base.get? key with
    | some documented => overlay.own.insert key documented
    | none => overlay.own

def addSignature (type name : Text) (signature : Signature) (overlay : Overlay) : Overlay :=
  { overlay with
    own := FunctionTable.addSignature none type name signature
      (overlay.ownWith (functionKey none name)) }

def addScript (overlay : Overlay) (script : Script) : Overlay :=
  script.functions.foldl
    (fun overlay found => overlay.addSignature found.type found.name found.signature) overlay

def ofScripts (base : FunctionTable) (scripts : List Script) : Overlay :=
  scripts.foldl addScript (ofTable base)

def function? (qualifier : Option Text) (name : Text) (overlay : Overlay) : Option Callable :=
  (FunctionTable.function? qualifier name overlay.own).or
    (FunctionTable.function? qualifier name overlay.base)

def functions (overlay : Overlay) : List Callable :=
  overlay.own.values ++
    (overlay.base.entries.filter fun entry => !overlay.own.contains entry.1).map (·.2)

end Overlay

end ScriptSense
