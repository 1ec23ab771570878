import ScriptSense.Text

/-!
The words with a fixed meaning in scripts, the name under which a spelled type is documented, and the
reader of types.
-/
namespace ScriptSense

def primitives : List Text :=
  ["void", "bool", "int", "int8", "int16", "int32", "int64", "uint", "uint8", "uint16", "uint32",
    "uint64", "s8", "s16", "s32", "s64", "u8", "u16", "u32", "u64", "f32", "f64", "float",
    "double"].map String.toList

/-- Words that can stand before an identifier without declaring it. -/
def nonTypeKeywords : List Text :=
  ["return", "else", "case", "default", "if", "while", "for", "do", "switch", "break", "continue",
    "not", "and", "or", "xor", "is", "cast", "const", "in", "out", "inout", "shared", "funcdef",
    "import", "private", "protected", "class", "interface", "namespace", "enum", "typedef",
    "mixin"].map String.toList

def isPrimitive (word : Text) : Bool := primitives.contains word

def isNonTypeKeyword (word : Text) : Bool := nonTypeKeywords.contains word

def arrayName : Text := "array".toList

/-! ### Names of types

Handles and blanks at the end of a spelling do not matter, and every array, generic or bracketed, is
documented under the same name.
-/

def isHandleOrBlank (c : Char) : Bool := c == '@' || isBlank c

def bareSpelling (spelling : Text) : Text := Text.dropEndWhile isHandleOrBlank (Text.trim spelling)

def isGenericArray (bare : Text) : Bool :=
  (Text.after? "array<".toList bare).isSome && bare.getLast? == some '>'

def dropPairs : Text → Text
  | ']' :: '[' :: rest => dropPairs rest
  | rest => rest

def isBracketedArray (bare : Text) : Bool :=
  match bare.reverse with
  | ']' :: '[' :: rest => !(dropPairs rest).all (· == '@')
  | _ => false

def lookupName (spelling : Text) : Text :=
  let bare := bareSpelling spelling
  if isGenericArray bare || isBracketedArray bare then arrayName else bare

/-! ### The reader

A type is a word with handles and `[]` pairs, or `array<...>` with handles. A word and its
decoration are read to their full length. Which `>` closes an `array<` is not settled by the type
alone, so the reader takes the rule for what follows and tries the closings in turn.
-/

namespace TypeSpelling

def takePairs : Text → Text × Text
  | '[' :: ']' :: rest => ('[' :: ']' :: (takePairs rest).1, (takePairs rest).2)
  | rest => ([], rest)

def takeHandles (text : Text) : Text × Text := text.span (· == '@')

def takeDecoration (text : Text) : Text × Text :=
  let (element, rest) := takeHandles text
  match takePairs rest with
  | ([], _) => (element, rest)
  | (pairs, rest) =>
      let (handles, rest) := takeHandles rest
      (element ++ pairs ++ handles, rest)

def endsGeneric (c : Char) : Bool :=
  c == ';' || c == '=' || c == '(' || c == ')' || c == '{' || c == '}'

/-- The text through the first `>` after which `next` succeeds. -/
def throughClosing {α : Type} (next : Text → Option α) : Text → Option (Text × α)
  | [] => none
  | first :: rest =>
      if endsGeneric first then none
      else
        let here := if first = '>' then next rest else none
        match here with
        | some found => some ([first], found)
        | none => (throughClosing next rest).map fun later => (first :: later.1, later.2)

def read? {α : Type} (next : Text → Option α) (text : Text) : Option (Text × α) :=
  match Text.run? isWordChar text with
  | none => none
  | some (word, rest) =>
      match if word = arrayName then Text.after? ['<'] rest else none with
      | some inside =>
          let closed := throughClosing
            (fun rest => (next (takeHandles rest).2).map fun found => ((takeHandles rest).1, found))
            inside
          closed.map fun (element, handles, found) => (word ++ '<' :: (element ++ handles), found)
      | none =>
          let (decoration, rest) := takeDecoration rest
          (next rest).map fun found => (word ++ decoration, found)

/-- A type as `read?` reads it, behind `const` if the rest can then be read, else with `const` as
the type itself. -/
def readConst? {α : Type} (separates : Char → Bool) (next : Text → Option α) (text : Text) :
    Option (Text × α) :=
  let behind := (Text.after? "const".toList text).bind (Text.afterSome? separates)
  (behind.bind (read? next)).or (read? next text)

end TypeSpelling

end ScriptSense
