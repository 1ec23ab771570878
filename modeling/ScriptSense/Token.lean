import ScriptSense.Text

/-!
Comments, string literals and code. The scanner is a machine that reads one character at a time: a
`Mode` says what the token in progress is, and a step extends it, closes it or starts the next one.
A `/` waits in a mode of its own until the next character shows whether it opens a comment.
Every character ends up in exactly one token.
-/
namespace ScriptSense

inductive Quote where
  | double
  | single
  deriving DecidableEq, Repr

def Quote.char : Quote → Char
  | .double => '"'
  | .single => '\''

inductive TokenKind where
  | lineComment
  | blockComment (closed : Bool)
  | string (quote : Quote) (closed : Bool)
  | slash
  | code
  deriving DecidableEq, Repr

namespace TokenKind

def isComment : TokenKind → Bool
  | lineComment | blockComment _ => true
  | _ => false

def isString : TokenKind → Bool
  | string _ _ => true
  | _ => false

/-- Text appended after such a token would still be inside it. -/
def isUnterminated : TokenKind → Bool
  | lineComment => true
  | blockComment closed | string _ closed => !closed
  | slash | code => false

end TokenKind

structure Token where
  kind : TokenKind
  text : Text
  deriving DecidableEq, Repr

namespace Token

/-- The token in progress. A block comment remembers a star, a string a backslash. -/
inductive Mode where
  | code
  | slash
  | lineComment
  | blockComment (star : Bool)
  | string (quote : Quote) (escaped : Bool)
  deriving DecidableEq, Repr

inductive Step where
  | extend (next : Mode)
  | close
  | restart
  deriving DecidableEq, Repr

namespace Mode

def start (c : Char) : Mode :=
  if c = '/' then .slash
  else if c = '"' then .string .double false
  else if c = '\'' then .string .single false
  else .code

def step : Mode → Char → Step
  | .code, c => if start c = .code then .extend .code else .restart
  | .slash, c =>
      if c = '/' then .extend .lineComment
      else if c = '*' then .extend (.blockComment false)
      else .restart
  | .lineComment, c => if c = '\n' then .restart else .extend .lineComment
  | .blockComment star, c =>
      if star && c = '/' then .close else .extend (.blockComment (c = '*'))
  | .string quote true, _ => .extend (.string quote false)
  | .string quote false, c =>
      if c = '\\' then .extend (.string quote true)
      else if c = quote.char then .close
      else .extend (.string quote false)

def kind (closed : Bool) : Mode → TokenKind
  | .code => .code
  | .slash => .slash
  | .lineComment => .lineComment
  | .blockComment _ => .blockComment closed
  | .string quote _ => .string quote closed

end Mode

/-- The tokens of a text that follows a token in progress, whose characters are held last first. -/
def scan : Option (Mode × Text) → Text → List Token
  | none, [] => []
  | some (mode, held), [] => [⟨mode.kind false, held.reverse⟩]
  | none, first :: rest => scan (some (.start first, [first])) rest
  | some (mode, held), first :: rest =>
      match mode.step first with
      | .extend next => scan (some (next, first :: held)) rest
      | .close => ⟨mode.kind true, (first :: held).reverse⟩ :: scan none rest
      | .restart => ⟨mode.kind false, held.reverse⟩ :: scan (some (.start first, [first])) rest

end Token

def tokenize (text : Text) : List Token := Token.scan none text

def placed : Nat → List Token → List (Nat × Token)
  | _, [] => []
  | offset, token :: rest => (offset, token) :: placed (offset + Text.byteLength token.text) rest

def endsInTrivia (text : Text) : Bool :=
  match (tokenize text).getLast? with
  | none => false
  | some token => token.kind.isUnterminated

end ScriptSense
