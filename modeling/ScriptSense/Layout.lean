import ScriptSense.Token

/-!
What is done to a script's text before anything is read in it: trivia is blanked, handles are moved onto
their types, and bracketed groups are folded away. The first two keep every offset and every line.
-/
namespace ScriptSense

/-! ### Blanking

Comments, and the interiors of strings where wanted, become spaces. White space stays as it is and
every other character becomes as many spaces as it has bytes. A string keeps its delimiters; only a
closed string has a second one.
-/

def blankChar (c : Char) : Text := if isBlank c then [c] else Text.spaces c.utf8Size

def blank (text : Text) : Text := text.flatMap blankChar

def blankInterior (closed : Bool) : Text → Text
  | [] => []
  | quote :: body => quote :: if closed then blank body.dropLast ++ [quote] else blank body

def Token.blanked (strings : Bool) (token : Token) : Text :=
  match token.kind with
  | .lineComment | .blockComment _ => blank token.text
  | .string _ closed => if strings then blankInterior closed token.text else token.text
  | .slash | .code => token.text

def blankTrivia (strings : Bool) (text : Text) : Text :=
  (tokenize text).flatMap (Token.blanked strings)

/-! ### Handles

A `@` that stands apart from its type on the same line is moved onto it, and the blanks around it
become spaces after it: `Blob @ b` reads `Blob@  b`. The text is settled from the right, so what
follows a handle no longer changes when it is moved.
-/

def endsType (c : Char) : Bool := isWordChar c || c == ']' || c == '>'

def pullHandle (text : Text) : Text :=
  let (gap, marked) := text.span isInlineBlank
  match gap, marked with
  | _ :: _, '@' :: rest =>
      let (padding, after) := rest.span isInlineBlank
      '@' :: (Text.spaces (Text.byteLength gap + Text.byteLength padding) ++ after)
  | _, _ => text

def attachHandles : Text → Text
  | [] => []
  | first :: rest =>
      if endsType first then first :: pullHandle (attachHandles rest)
      else first :: attachHandles rest

def sanitize (text : Text) : Text := attachHandles (blankTrivia true text)

def stripComments (text : Text) : Text := attachHandles (blankTrivia false text)

/-! ### Folding

Every matched pair of brackets is emptied; what is left is the text outside of all groups and one
layer of text for each group that is still open. A closing bracket drops the innermost layer, so
nothing that was recorded about the layers below can go stale. Bases and layers are held last
character first, layers innermost first.
-/

structure Bracket where
  opening : Char
  closing : Char
  deriving DecidableEq, Repr

def braces : Bracket := ⟨'{', '}'⟩

def parens : Bracket := ⟨'(', ')'⟩

structure Folded where
  base : Text
  layers : List Text
  deriving DecidableEq, Repr

namespace Folded

def empty : Folded := ⟨[], []⟩

def push (c : Char) : Folded → Folded
  | ⟨base, []⟩ => ⟨c :: base, []⟩
  | ⟨base, layer :: layers⟩ => ⟨base, (c :: layer) :: layers⟩

def step (bracket : Bracket) (folded : Folded) (c : Char) : Folded :=
  if c = bracket.opening then ⟨folded.base, [] :: folded.layers⟩
  else if c = bracket.closing then
    match folded.layers with
    | [] => folded.push c
    | _ :: layers => (push bracket.opening ⟨folded.base, layers⟩).push c
  else folded.push c

/-- The folded text: every open group keeps its opening bracket and its own text. -/
def text (bracket : Bracket) (folded : Folded) : Text :=
  folded.base.reverse ++
    folded.layers.reverse.flatMap fun layer => bracket.opening :: layer.reverse

/-- Where the open groups begin in the folded text, outermost first. -/
def openings (bracket : Bracket) : Folded → List Nat
  | ⟨_, []⟩ => []
  | ⟨base, _ :: layers⟩ =>
      openings bracket ⟨base, layers⟩ ++ [Text.byteLength (text bracket ⟨base, layers⟩)]

end Folded

def fold (bracket : Bracket) (source : Text) : Folded :=
  source.foldl (Folded.step bracket) Folded.empty

def foldedText (bracket : Bracket) (source : Text) : Text :=
  (fold bracket source).text bracket

end ScriptSense
