import ScriptSense.Proofs.Handle
import ScriptSense.Proofs.Token

/-!
A closed string literal and the tokens around it. The scanner settles each token at the character behind
it, so what a literal contains can be exchanged without a change to the tokens in front of it and behind
it. With its comments removed, the script is the same on both sides of the quotes.
-/
namespace ScriptSense

namespace Token

theorem scan_cons (state : Option (Mode × Text)) (text : Text) (token : Token) (later : List Token)
    (scanned : scan state text = token :: later) :
    ∃ taken rest, text = taken ++ rest ∧ token.text = heldText state ++ taken ∧
      tokenize rest = later ∧ ∀ c more, rest = c :: more → ∀ other,
        scan state (taken ++ c :: other) = token :: tokenize (c :: other) := by
  induction text generalizing state with
  | nil =>
      cases state with
      | none => cases scanned
      | some progress =>
          obtain ⟨rfl, rfl⟩ := List.cons.inj scanned
          exact ⟨[], [], rfl, (List.append_nil _).symm, rfl, nofun⟩
  | cons first rest ih =>
      have goesOn (next : Option (Mode × Text)) (held : heldText next = heldText state ++ [first])
          (reads : ∀ other, scan state (first :: other) = scan next other) :
          ∃ taken left, first :: rest = taken ++ left ∧ token.text = heldText state ++ taken ∧
            tokenize left = later ∧ ∀ c more, left = c :: more → ∀ other,
              scan state (taken ++ c :: other) = token :: tokenize (c :: other) := by
        rw [reads] at scanned
        obtain ⟨taken, left, split, text, behind, settled⟩ := ih next scanned
        refine ⟨first :: taken, left, by rw [split]; rfl, ?_, behind, fun c more shape other => ?_⟩
        · rw [text, held, List.append_assoc]
          rfl
        · exact (reads _).trans (settled c more shape other)
      cases state with
      | none => exact goesOn (some (.start first, [first])) rfl fun _ => rfl
      | some progress =>
          obtain ⟨mode, held⟩ := progress
          cases taken : mode.step first with
          | extend next =>
              exact goesOn (some (next, first :: held)) (by simp [heldText]) fun other => by
                rw [scan, taken]
          | close =>
              rw [scan, taken] at scanned
              obtain ⟨rfl, rfl⟩ := List.cons.inj scanned
              refine ⟨[first], rest, rfl, by simp [heldText], rfl, fun c more _ other => ?_⟩
              rw [List.singleton_append, scan, taken]
              rfl
          | restart =>
              rw [scan, taken] at scanned
              obtain ⟨rfl, rfl⟩ := List.cons.inj scanned
              refine ⟨[], first :: rest, rfl, (List.append_nil _).symm, rfl, ?_⟩
              rintro _ _ ⟨⟩ other
              rw [List.nil_append, scan, taken]
              rfl

def texts (tokens : List Token) : Text := tokens.flatMap (·.text)

/-- The tokens in front of a place depend on nothing behind the character there. -/
theorem tokenize_texts (before after : List Token) (c : Char) (rest other : Text)
    (scanned : tokenize (texts before ++ c :: rest) = before ++ after) :
    tokenize (texts before ++ c :: other) = before ++ tokenize (c :: other) := by
  induction before with
  | nil => rfl
  | cons token before ih =>
      have whole (behind : Text) : texts (token :: before) ++ behind =
          token.text ++ (texts before ++ behind) := List.append_assoc _ _ _
      rw [whole] at scanned ⊢
      obtain ⟨taken, left, split, text, behind, settled⟩ := scan_cons none _ token _ scanned
      obtain rfl : token.text = taken := text
      obtain rfl := List.append_cancel_left split
      have later := ih behind
      cases shape : texts before with
      | nil =>
          rw [shape] at later settled
          exact (settled c rest rfl other).trans (congrArg (token :: ·) later)
      | cons head tail =>
          rw [shape] at later settled
          exact (settled head _ rfl (tail ++ c :: other)).trans (congrArg (token :: ·) later)

theorem tokenize_behind (before after : List Token) (c : Char) (rest : Text)
    (scanned : tokenize (texts before ++ c :: rest) = before ++ after) :
    tokenize (c :: rest) = after := by
  rw [tokenize_texts before after c rest rest scanned] at scanned
  exact List.append_cancel_left scanned

end Token

def Quote.other : Quote → Quote
  | .double => .single
  | .single => .double

def literalText (quote : Quote) (interior : Text) : Text := quote.char :: (interior ++ [quote.char])

theorem literalText_append (quote : Quote) (interior rest : Text) :
    literalText quote interior ++ rest = quote.char :: (interior ++ quote.char :: rest) := by
  simp [literalText]

def Quote.literal (quote : Quote) (interior : Text) : Token :=
  ⟨.string quote true, literalText quote interior⟩

def withLiteral (before : List Token) (quote : Quote) (interior : Text) (after : List Token) : Text :=
  Token.texts before ++ (literalText quote interior ++ Token.texts after)

def IsLiteral (before : List Token) (quote : Quote) (interior : Text) (after : List Token) : Prop :=
  tokenize (withLiteral before quote interior after) = before ++ quote.literal interior :: after

theorem Quote.start_char (quote : Quote) : Token.Mode.start quote.char = .string quote false := by
  cases quote with
  | double => rfl
  | single => rfl

theorem scan_literal (quote : Quote) (interior rest held : Text)
    (plain : ∀ c ∈ interior, c ≠ '\\' ∧ c ≠ quote.char) :
    Token.scan (some (.string quote false, held)) (interior ++ quote.char :: rest) =
      ⟨.string quote true, held.reverse ++ (interior ++ [quote.char])⟩ :: tokenize rest := by
  induction interior generalizing held with
  | nil => simp [Token.scan, Token.Mode.step, quote.char_not_backslash, Token.Mode.kind, tokenize]
  | cons first interior ih =>
      have here := plain first List.mem_cons_self
      have step : (Token.Mode.string quote false).step first = .extend (.string quote false) := by
        rw [Token.Mode.step, if_neg here.1, if_neg here.2]
      rw [List.cons_append, Token.scan, step]
      simpa using ih (first :: held) fun c member => plain c (List.mem_cons_of_mem first member)

theorem tokenize_literal (quote : Quote) (interior rest : Text)
    (plain : ∀ c ∈ interior, c ≠ '\\' ∧ c ≠ quote.char) :
    tokenize (literalText quote interior ++ rest) = quote.literal interior :: tokenize rest := by
  rw [literalText_append, tokenize, Token.scan, quote.start_char]
  exact scan_literal quote interior rest [quote.char] plain

/-- A literal with neither its quote nor a backslash in it can take the place of any other. -/
theorem IsLiteral.exchange {before after : List Token} {quote : Quote} {interior : Text}
    (literal : IsLiteral before quote interior after) (other : Text)
    (plain : ∀ c ∈ other, c ≠ '\\' ∧ c ≠ quote.char) : IsLiteral before quote other after := by
  have behind : tokenize (literalText quote interior ++ Token.texts after) =
      quote.literal interior :: after := Token.tokenize_behind before _ quote.char _ literal
  have rest : tokenize (Token.texts after) = after := by
    obtain ⟨taken, left, split, text, later, _⟩ := Token.scan_cons none _ _ _ behind
    obtain rfl : literalText quote interior = taken := text
    rwa [List.append_cancel_left split]
  have exchanged := Token.tokenize_texts before _ quote.char _
    ((other ++ [quote.char]) ++ Token.texts after) literal
  have here := tokenize_literal quote other (Token.texts after) plain
  rw [rest] at here
  exact exchanged.trans (congrArg (before ++ ·) here)

def stripped (tokens : List Token) : Text := attachHandles (tokens.flatMap (Token.blanked false))

/-- A quote neither ends a type nor stands between a type and a handle. -/
theorem Quote.apart (quote : Quote) :
    isInlineBlank quote.char = false ∧ quote.char ≠ '@' ∧ endsType quote.char = false := by
  cases quote with
  | double => decide
  | single => decide

/-- Quotes keep handles apart. -/
theorem Quote.attachHandles_split (quote : Quote) (left rest : Text) :
    attachHandles (left ++ quote.char :: rest) = attachHandles left ++ quote.char :: attachHandles rest :=
  have ⟨notBlank, notHandle, notType⟩ := quote.apart
  attachHandles_apart quote.char notBlank notHandle notType left rest

/-- A literal is read apart from what surrounds it. -/
theorem IsLiteral.stripComments {before after : List Token} {quote : Quote} {interior : Text}
    (literal : IsLiteral before quote interior after) :
    ScriptSense.stripComments (withLiteral before quote interior after) =
      stripped before ++ quote.char :: (attachHandles interior ++ quote.char :: stripped after) := by
  have kept : (quote.literal interior).blanked false = quote.char :: (interior ++ [quote.char]) := rfl
  rw [ScriptSense.stripComments, blankTrivia, literal, List.flatMap_append, List.flatMap_cons, kept,
    List.cons_append, quote.attachHandles_split, List.append_assoc, List.singleton_append,
    quote.attachHandles_split]
  rfl

end ScriptSense
