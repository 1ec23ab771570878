import ScriptSense.Resolution

/-!
The two answers to a cursor in an open script: what can be written there, and which call is being
written.
-/
namespace ScriptSense

/-! ### Completion

After a `.` the members of the object before it are offered; elsewhere everything that can begin an
expression, and at the start of a line the hooks too. Inside strings and comments nothing is offered.
-/

def completionTriggers : List Char := ['.']

inductive CompletionKind where
  | method
  | function
  | var
  | object
  | property
  | keyword
  | enumMember
  | event
  deriving DecidableEq, Repr

/-- The number of a kind in the language server protocol. -/
def CompletionKind.code : CompletionKind → Nat
  | method => 2
  | function => 3
  | var => 6
  | object => 7
  | property => 10
  | keyword => 14
  | enumMember => 20
  | event => 23

inductive Insertion where
  | label
  | text (content : Text)
  | snippet (content : Text)
  deriving DecidableEq, Repr

structure Completion where
  label : Text
  kind : CompletionKind
  detail : Option Text
  insertion : Insertion
  deriving DecidableEq, Repr

namespace Completion

def ofObject (object : Object) : Completion := ⟨object.name, .object, none, .label⟩

def ofProperty (property : Property) : Completion :=
  ⟨property.name, .property, some property.type, .label⟩

def ofVariable (declared : Variable) : Completion :=
  ⟨declared.label, .var, some declared.type, .label⟩

def ofEnumMember (member : EnumMember) : Completion :=
  ⟨member.label, .enumMember, none, .text member.insertion⟩

def ofName (name : Text) : Completion := ⟨name, .var, none, .label⟩

def ofKeyword (word : Text) : Completion := ⟨word, .keyword, none, .label⟩

def ofCallable (callable : Callable) : Completion :=
  match callable.hookSnippet? with
  | some snippet => ⟨callable.label, .event, none, .snippet snippet⟩
  | none =>
      let detail := callable.signatures.head?.map callable.signatureLabel
      match callable.kind with
      | .method _ => ⟨callable.name, .method, detail, .label⟩
      | _ => ⟨callable.label, .function, detail, .label⟩

def members (object : Object) : List Completion :=
  object.methods.values.map ofCallable ++ object.properties.map ofProperty

def general (knowledge : Knowledge) (overlay : Overlay) (names : List Text) : List Completion :=
  knowledge.enumMembers.map ofEnumMember ++ overlay.functions.map ofCallable ++
    knowledge.globalVariables.map ofVariable ++ knowledge.objects.values.map ofObject ++
    names.map ofName ++ primitives.map ofKeyword

end Completion

inductive CompletionSite where
  | member
  | lineStart
  | elsewhere
  deriving DecidableEq, Repr

/-- The site after the text of a line before the cursor: behind a `.` and perhaps part of a name,
at a place where a hook can begin, or elsewhere. -/
def CompletionSite.ofLine (line : Text) : CompletionSite :=
  let before := Text.trimEnd (Text.beforeTrailingName line)
  if before.getLast? = some '.' then .member
  else if (Text.trimStart before).isEmpty || isPrimitive (Text.trimStart before) then .lineStart
  else .elsewhere

namespace OpenScript

def memberCompletions (knowledge : Knowledge) (opened : OpenScript) (offset : Nat) :
    List Completion :=
  match (opened.resolverAt knowledge offset).object? (Chain.ofText (opened.script.upTo offset)) with
  | some object => Completion.members object
  | none => []

def generalCompletions (knowledge : Knowledge) (opened : OpenScript) (offset : Nat) :
    List Completion :=
  Completion.general knowledge (opened.overlay knowledge.functions)
    (opened.scopeAt offset).visibleNames

def completions (knowledge : Knowledge) (opened : OpenScript) (cursor : Cursor) :
    List Completion :=
  if endsInTrivia (cursor.before opened.text) then []
  else
    let offset := cursor.offset opened.text
    match CompletionSite.ofLine (cursor.lineBefore opened.text) with
    | .member => opened.memberCompletions knowledge offset
    | .lineStart =>
        knowledge.hooks.map Completion.ofCallable ++ opened.generalCompletions knowledge offset
    | .elsewhere => opened.generalCompletions knowledge offset

end OpenScript

/-! ### Signature help

The overloads of the call whose argument list is open at the cursor are shown. The active one is the
first that has a parameter for the argument being written.
-/

def helpTriggers : List Char := ['(', ',']

structure OverloadHelp where
  label : Text
  parameters : List Text
  active : Nat
  deriving DecidableEq, Repr

structure Help where
  overloads : List OverloadHelp
  activeOverload : Nat
  activeParameter : Nat
  deriving DecidableEq, Repr

def Help.ofCallable (callable : Callable) (active : Nat) : Help :=
  let overloads := callable.signatures.map fun signature =>
    ⟨callable.signatureLabel signature, signature.labels, active⟩
  let reaching := callable.signatures.findIdx? fun signature => active < signature.arity
  ⟨overloads, reaching.getD 0, active⟩

def OpenScript.help? (knowledge : Knowledge) (opened : OpenScript) (cursor : Cursor) :
    Option Help :=
  if endsInTrivia (cursor.before opened.text) then none
  else do
    let offset := cursor.offset opened.text
    let call ← OpenCall.ofText? (opened.script.upTo offset)
    let callable ← (opened.resolverAt knowledge offset).callable? call.chain
    if callable.signatures.isEmpty then none else some (Help.ofCallable callable call.active)

end ScriptSense
