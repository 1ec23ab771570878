import ScriptSense.Unicode.Alphanumeric
import ScriptSense.Unicode.NameContinue
import ScriptSense.Unicode.Word

/-!
Text as a list of characters: the classes that tell words, names and blanks apart, the cuts that every
analysis uses, the search for all places where a rule applies, and cursors.
-/
namespace ScriptSense

/-! ### Character classes

Three classes of word-like characters are in use and none contains another: names follow the
identifier rules, patterns follow word boundaries, and the first word of a type spelling is made of
letters and numbers. Each class decides ASCII directly and reads its table only above it. The tables
follow different versions of the Unicode standard, so a recent letter may be in one class and not in
another.
-/

def inRanges (ranges : List (Nat × Nat)) (code : Nat) : Bool :=
  ranges.any fun range => range.1 ≤ code && code ≤ range.2

def whiteSpace : List (Nat × Nat) :=
  [
    (0x9, 0xd), (0x20, 0x20), (0x85, 0x85), (0xa0, 0xa0), (0x1680, 0x1680), (0x2000, 0x200a),
    (0x2028, 0x2029), (0x202f, 0x202f), (0x205f, 0x205f), (0x3000, 0x3000)
  ]

def isBlank (c : Char) : Bool := inRanges whiteSpace c.toNat

/-- White space within a line. Only the line feed ends a line. -/
def isInlineBlank (c : Char) : Bool := isBlank c && c != '\n'

def isAscii (c : Char) : Bool := c.toNat < 0x80

def isNameChar (c : Char) : Bool :=
  if isAscii c then c.isAlphanum || c == '_' else inRanges Unicode.nameContinue c.toNat

def isWordChar (c : Char) : Bool :=
  if isAscii c then c.isAlphanum || c == '_' else inRanges Unicode.word c.toNat

def isPlainChar (c : Char) : Bool :=
  if isAscii c then c.isAlphanum || c == '_' else inRanges Unicode.alphanumeric c.toNat

/-! ### Cuts

A text is cut at a byte offset, at either end, at its line breaks and around `::`. Offsets count
UTF-8 bytes; they are a measure of a text and never an index into it.
-/

abbrev Text := List Char

namespace Text

def byteLength : Text → Nat
  | [] => 0
  | first :: rest => first.utf8Size + byteLength rest

/-- The longest beginning of at most `size` bytes; a character is never split. -/
def takeBytes : Nat → Text → Text
  | _, [] => []
  | size, first :: rest =>
      if first.utf8Size ≤ size then first :: takeBytes (size - first.utf8Size) rest else []

def spaces (count : Nat) : Text := List.replicate count ' '

def takeEndWhile (keep : Char → Bool) (text : Text) : Text :=
  (text.reverse.takeWhile keep).reverse

def dropEndWhile (drop : Char → Bool) (text : Text) : Text :=
  (text.reverse.dropWhile drop).reverse

def trimStart (text : Text) : Text := text.dropWhile isBlank

def trimEnd (text : Text) : Text := dropEndWhile isBlank text

def trim (text : Text) : Text := trimEnd (trimStart text)

def after? : Text → Text → Option Text
  | [], text => some text
  | _ :: _, [] => none
  | lead :: leads, first :: rest => if lead = first then after? leads rest else none

def afterSome? (skip : Char → Bool) : Text → Option Text
  | [] => none
  | first :: rest => if skip first then some (rest.dropWhile skip) else none

def run? (keep : Char → Bool) (text : Text) : Option (Text × Text) :=
  match text.span keep with
  | ([], _) => none
  | split => some split

/-- The lines of a text. A line feed ends a line, together with a carriage return right before it;
the last line needs no end. -/
def lines : Text → List Text
  | [] => []
  | '\n' :: rest => [] :: lines rest
  | '\r' :: '\n' :: rest => [] :: lines rest
  | first :: rest =>
      match lines rest with
      | [] => [[first]]
      | line :: others => (first :: line) :: others

def isIdentifier (text : Text) : Bool := !text.isEmpty && text.all isNameChar

def trailingName (text : Text) : Text := takeEndWhile isNameChar text

def beforeTrailingName (text : Text) : Text := dropEndWhile isNameChar text

def leadingWord (text : Text) : Text := text.takeWhile isPlainChar

def beforeColons : Text → Text
  | [] => []
  | ':' :: ':' :: _ => []
  | first :: rest => first :: beforeColons rest

def dropColons : Text → Text
  | ':' :: ':' :: rest => dropColons rest
  | text => text

/-- The text around the last `::` whose right side is accepted. -/
def splitLastColons? (accept : Text → Bool) : Text → Option (Text × Text)
  | [] => none
  | first :: rest =>
      match splitLastColons? accept rest with
      | some (left, right) => some (first :: left, right)
      | none =>
          match first, rest with
          | ':', ':' :: right => if accept right then some ([], right) else none
          | _, _ => none

end Text

/-! ### Search

Places are tried from left to right, and the search goes on where the last match ended, so matches
never overlap.
-/

/-- A rule reads a match at the start of a text, given the character in front of it, and returns
what follows the match. -/
abbrev Rule (α : Type) := Option Char → Text → Option (α × Text)

/-- Matches after `skip` characters that belong to the match before them. -/
def findFrom {α : Type} (rule : Rule α) : Nat → Option Char → Text → List α
  | _, _, [] => []
  | skip + 1, _, first :: rest => findFrom rule skip (some first) rest
  | 0, before, first :: rest =>
      match rule before (first :: rest) with
      | none => findFrom rule 0 (some first) rest
      | some (found, after) =>
          found :: findFrom rule (rest.length - after.length) (some first) rest

def findAll {α : Type} (rule : Rule α) (text : Text) : List α := findFrom rule 0 none text

def atLineStart {α : Type} (rule : Text → Option (α × Text)) : Rule α := fun before text =>
  if before = none ∨ before = some '\n' then rule text else none

/-! ### Cursors

Lines and columns count from zero, columns in characters. A cursor names the text before it: a column
past the end of its line stands at the line's end, and a line past the last one at the end of the
text.
-/

structure Cursor where
  line : Nat
  column : Nat
  deriving DecidableEq, Repr

namespace Cursor

/-- The text before the place `line` line breaks and `column` characters further on. -/
def reach : Nat → Nat → Text → Text
  | _, _, [] => []
  | line + 1, column, first :: rest =>
      first :: reach (if first = '\n' then line else line + 1) column rest
  | 0, 0, _ :: _ => []
  | 0, column + 1, first :: rest =>
      if first = '\n' then [] else first :: reach 0 column rest

def before (cursor : Cursor) (text : Text) : Text := reach cursor.line cursor.column text

def offset (cursor : Cursor) (text : Text) : Nat := Text.byteLength (cursor.before text)

def lineBefore (cursor : Cursor) (text : Text) : Text :=
  Text.takeEndWhile (· != '\n') (cursor.before text)

end Cursor

end ScriptSense
