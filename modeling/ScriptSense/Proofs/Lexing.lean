import ScriptSense.Proofs.Literal
import ScriptSense.Proofs.Places
import ScriptSense.Proofs.TokenEnd

/-!
How a text is cut into tokens, said without the scanner. A lexing says of each token what it is made of
and what may stand behind it: comments in `/*` and strings end with the first mark that closes them, and
any other token where something else begins. Every text has a lexing, and the scanner finds the tokens of
any lexing again, so a text has only one.
-/
namespace ScriptSense

def escapes (body : Text) : Bool := trailingBackslashes body % 2 == 1

theorem escapes_concat (body : Text) (c : Char) :
    escapes (body ++ [c]) = (c == '\\' && !escapes body) := by
  rw [Bool.eq_iff_iff]
  simp [escapes, trailingBackslashes_odd]

inductive Enclosure where
  | comment
  | string (quote : Quote)

namespace Enclosure

def kind (closed : Bool) : Enclosure → TokenKind
  | comment => .blockComment closed
  | string quote => .string quote closed

def opening : Enclosure → Text
  | comment => ['/', '*']
  | string quote => [quote.char]

/-- The text behind the opening ends in a mark that closes it: in `*/`, or in the quote of the string
behind an even number of backslashes. -/
def Closes : Enclosure → Text → Prop
  | comment, body => ['*', '/'] <:+ body
  | string quote, body => quote.closes body = true

def Unclosed (enclosure : Enclosure) (body : Text) : Prop :=
  ∀ front, front <+: body → ¬enclosure.Closes front

def ClosedFirst (enclosure : Enclosure) (body : Text) : Prop :=
  enclosure.Closes body ∧ ∀ front, front <+: body → enclosure.Closes front → front = body

variable (enclosure : Enclosure)

theorem not_closes_nil : ¬enclosure.Closes [] := by
  cases enclosure with
  | comment => simp [Closes]
  | string quote => simp [Closes, Quote.closes]

theorem unclosed_nil : enclosure.Unclosed [] := by
  intro front start
  rw [List.prefix_nil.mp start]
  exact enclosure.not_closes_nil

theorem unclosed_concat (body : Text) (c : Char) :
    enclosure.Unclosed (body ++ [c]) ↔ enclosure.Unclosed body ∧ ¬enclosure.Closes (body ++ [c]) := by
  simp only [Unclosed, List.prefix_concat_iff, forall_eq_or_imp]
  exact and_comm

theorem closedFirst_concat (body : Text) (c : Char) :
    enclosure.ClosedFirst (body ++ [c]) ↔ enclosure.Unclosed body ∧ enclosure.Closes (body ++ [c]) := by
  constructor
  · rintro ⟨closes, first⟩
    refine ⟨fun front start earlier => ?_, closes⟩
    have whole := first front (start.trans (List.prefix_append body [c])) earlier
    rw [whole] at start
    exact absurd start.length_le (by simp)
  · rintro ⟨unclosed, closes⟩
    refine ⟨closes, fun front start earlier => ?_⟩
    rcases List.prefix_concat_iff.mp start with whole | shorter
    · exact whole
    · exact absurd earlier (unclosed front shorter)

theorem ClosedFirst.split {enclosure : Enclosure} {body : Text} (first : enclosure.ClosedFirst body) :
    ∃ inner last, body = inner ++ [last] := by
  rcases List.eq_nil_or_concat body with rfl | ⟨inner, last, shape⟩
  · exact absurd first.1 enclosure.not_closes_nil
  · exact ⟨inner, last, by simpa using shape⟩

-- From the end of the text: what stands in front of its last character has a first mark, or none.
theorem unclosed_or_closed (text : Text) :
    enclosure.Unclosed text ∨ ∃ body rest, text = body ++ rest ∧ enclosure.ClosedFirst body := by
  induction text using List.reverseRecOn with
  | nil => exact .inl enclosure.unclosed_nil
  | append_singleton text c ih =>
      rcases ih with unclosed | ⟨body, rest, rfl, first⟩
      · by_cases closes : enclosure.Closes (text ++ [c])
        · have first := (enclosure.closedFirst_concat text c).mpr ⟨unclosed, closes⟩
          exact .inr ⟨text ++ [c], [], by simp, first⟩
        · exact .inl ((enclosure.unclosed_concat text c).mpr ⟨unclosed, closes⟩)
      · exact .inr ⟨body, rest ++ [c], by simp, first⟩

def mode : Enclosure → Text → Token.Mode
  | comment, body => .blockComment (body.getLast? = some '*')
  | string quote, body => .string quote (escapes body)

theorem mode_kind (closed : Bool) (body : Text) :
    (enclosure.mode body).kind closed = enclosure.kind closed := by
  cases enclosure <;> rfl

theorem comment_closes_concat (body : Text) (c : Char) :
    comment.Closes (body ++ [c]) ↔ body.getLast? = some '*' ∧ c = '/' := by
  rw [Closes, List.getLast?_eq_some_iff]
  constructor
  · rintro ⟨front, split⟩
    have same : front ++ ['*'] ++ ['/'] = body ++ [c] := by simpa using split
    obtain ⟨rfl, last⟩ := List.append_inj' same rfl
    exact ⟨⟨front, rfl⟩, by simpa using last.symm⟩
  · rintro ⟨⟨front, rfl⟩, rfl⟩
    exact ⟨front, by simp⟩

theorem string_closes_concat (quote : Quote) (body : Text) (c : Char) :
    (string quote).Closes (body ++ [c]) ↔ c = quote.char ∧ escapes body = false := by
  rw [Closes, Quote.closes_concat, escapes]
  simp

/-- A character behind the text closes it if the two end in a mark; if not, the text goes on with it. -/
theorem step_mode (body : Text) (c : Char) :
    (enclosure.Closes (body ++ [c]) → (enclosure.mode body).step c = .close) ∧
      (¬enclosure.Closes (body ++ [c]) →
        (enclosure.mode body).step c = .extend (enclosure.mode (body ++ [c]))) := by
  cases enclosure with
  | comment =>
      rw [comment_closes_concat, mode, Token.Mode.step, mode, List.getLast?_concat]
      constructor
      · rintro ⟨star, rfl⟩
        simp [star]
      · intro apart
        rw [if_neg (by simpa using apart)]
        simp
  | string quote =>
      rw [string_closes_concat, mode, mode, escapes_concat]
      cases escapes body with
      | true => simp [Token.Mode.step]
      | false =>
          have plain := quote.char_not_backslash
          constructor
          · rintro ⟨rfl, _⟩
            simp [Token.Mode.step, plain]
          · intro apart
            have other : c ≠ quote.char := by simpa using apart
            by_cases backslash : c = '\\'
            · simp [Token.Mode.step, backslash]
            · simp [Token.Mode.step, backslash, other]

/-- The scanner is within the enclosure as long as no mark has closed it. -/
theorem holds (body : Text) (unclosed : enclosure.Unclosed body) :
    (enclosure.mode body).Holds (enclosure.opening ++ body) := by
  induction body using List.reverseRecOn with
  | nil =>
      rw [List.append_nil]
      cases enclosure with
      | comment => exact .extend (.start '/') rfl
      | string quote =>
          have start := Token.Mode.Holds.start quote.char
          rwa [quote.start_char] at start
  | append_singleton body c ih =>
      rw [unclosed_concat] at unclosed
      rw [← List.append_assoc]
      exact .extend (ih unclosed.1) ((enclosure.step_mode body c).2 unclosed.2)

end Enclosure

namespace Token

theorem start_mark (c : Char) (mark : isCode c = false) : Mode.start c ≠ .code := by
  intro start
  cases start ▸ Mode.starts c with
  | code notSlash unquoted =>
      rw [(isCode_iff c).mpr ⟨notSlash, unquoted⟩] at mark
      cases mark

theorem Mode.holds_lineComment (body : Text) (within : '\n' ∉ body) :
    Mode.Holds .lineComment ('/' :: '/' :: body) := by
  induction body using List.reverseRecOn with
  | nil => exact .extend (.start '/') rfl
  | append_singleton body c ih =>
      rw [List.mem_append, List.mem_singleton, not_or] at within
      exact .extend (ih within.1) (by rw [Mode.step, if_neg (Ne.symm within.2)])

/-- What a token is made of, and which tokens may stand behind it. -/
inductive Lexeme : Token → List Token → Prop where
  | lineComment (body : Text) (later : List Token) (within : '\n' ∉ body)
      (stops : ∀ c, (texts later).head? = some c → c = '\n') :
      Lexeme ⟨.lineComment, '/' :: '/' :: body⟩ later
  | closed (enclosure : Enclosure) (body : Text) (later : List Token)
      (first : enclosure.ClosedFirst body) :
      Lexeme ⟨enclosure.kind true, enclosure.opening ++ body⟩ later
  | unclosed (enclosure : Enclosure) (body : Text) (unclosed : enclosure.Unclosed body) :
      Lexeme ⟨enclosure.kind false, enclosure.opening ++ body⟩ []
  | slash (later : List Token)
      (alone : (texts later).head? ≠ some '/' ∧ (texts later).head? ≠ some '*') :
      Lexeme ⟨.slash, ['/']⟩ later
  | code (text : Text) (later : List Token) (some_char : text ≠ [])
      (code : ∀ c ∈ text, isCode c = true)
      (apart : ∀ next, later.head? = some next → next.kind ≠ .code) : Lexeme ⟨.code, text⟩ later

inductive Lexing : List Token → Prop where
  | nil : Lexing []
  | cons {token : Token} {later : List Token} (here : Lexeme token later) (behind : Lexing later) :
      Lexing (token :: later)

theorem texts_cons (token : Token) (later : List Token) :
    texts (token :: later) = token.text ++ texts later := List.flatMap_cons

namespace Lexeme

variable {token : Token} {later : List Token} (lexeme : Lexeme token later)
include lexeme

theorem some_char : token.text ≠ [] := by
  cases lexeme with
  | lineComment => exact List.cons_ne_nil _ _
  | closed enclosure | unclosed enclosure => cases enclosure <;> exact List.cons_ne_nil _ _
  | slash => exact List.cons_ne_nil _ _
  | code _ _ some_char => exact some_char

/-- Code, and no other token, begins with a character that is neither a quote nor a slash. -/
theorem head_code (c : Char) (head : token.text.head? = some c) :
    token.kind = .code ↔ isCode c = true := by
  cases lexeme with
  | lineComment =>
      cases head
      simp [isCode]
  | closed enclosure | unclosed enclosure =>
      cases enclosure with
      | comment =>
          cases head
          simp [isCode, Enclosure.kind]
      | string quote =>
          cases head
          simp [Enclosure.kind, quote.char_not_code]
  | slash =>
      cases head
      simp [isCode]
  | code _ _ _ code => exact iff_of_true rfl (code c (List.mem_of_mem_head? head))

end Lexeme

namespace Lexing

theorem eq_nil {tokens : List Token} (lexing : Lexing tokens) (empty : texts tokens = []) :
    tokens = [] := by
  cases lexing with
  | nil => rfl
  | cons here _ =>
      rw [texts_cons, List.append_eq_nil_iff] at empty
      exact absurd empty.1 here.some_char

theorem head_code {later : List Token} (lexing : Lexing later) :
    (∀ next, later.head? = some next → next.kind ≠ .code) ↔
      ∀ c, (texts later).head? = some c → isCode c = false := by
  cases lexing with
  | nil => exact iff_of_true nofun nofun
  | @cons token later here _ =>
      obtain ⟨first, more, shape⟩ := List.exists_cons_of_ne_nil here.some_char
      have head := here.head_code first (by rw [shape, List.head?_cons])
      rw [texts_cons, shape]
      simpa using head.not

end Lexing

/-- The scanner finds a lexeme in front of any lexing. -/
theorem Lexeme.scanned {token : Token} {later : List Token} (lexeme : Lexeme token later)
    (lexing : Lexing later) : tokenize (token.text ++ texts later) = token :: tokenize (texts later) := by
  cases lexeme with
  | lineComment body _ within stops =>
      refine (Mode.holds_lineComment body within).stop (texts later) fun c head => ?_
      rw [Mode.step, if_pos (stops c head)]
  | closed enclosure body _ first =>
      obtain ⟨inner, last, rfl⟩ := first.split
      obtain ⟨unclosed, closes⟩ := (enclosure.closedFirst_concat inner last).mp first
      have scanned := (enclosure.holds inner unclosed).close last
        ((enclosure.step_mode inner last).1 closes) (texts later)
      rwa [enclosure.mode_kind, List.append_assoc _ inner] at scanned
  | unclosed enclosure body unclosed =>
      have scanned := (enclosure.holds body unclosed).stop [] (by simp)
      rwa [enclosure.mode_kind] at scanned
  | slash _ alone => exact tokenize_slash (texts later) alone
  | code text _ some_char code apart =>
      obtain ⟨first, more, rfl⟩ := List.exists_cons_of_ne_nil some_char
      refine (Mode.holds_code first more code).stop (texts later) fun c head => ?_
      rw [Mode.step, if_neg (start_mark c (lexing.head_code.mp apart c head))]

theorem Lexing.scanned {tokens : List Token} (lexing : Lexing tokens) :
    tokenize (texts tokens) = tokens := by
  induction lexing with
  | nil => rfl
  | cons here behind ih => rw [texts_cons, here.scanned behind, ih]

def BeginsWithLexeme (text : Text) : Prop :=
  ∃ token rest, text = token.text ++ rest ∧ token.text ≠ [] ∧
    ∀ later, Lexing later → texts later = rest → Lexeme token later

theorem begins_enclosure (enclosure : Enclosure) (behind : Text) :
    BeginsWithLexeme (enclosure.opening ++ behind) := by
  have opened (body : Text) : enclosure.opening ++ body ≠ [] := by
    cases enclosure <;> exact List.cons_ne_nil _ _
  rcases enclosure.unclosed_or_closed behind with unclosed | ⟨body, rest, rfl, first⟩
  · refine ⟨⟨enclosure.kind false, enclosure.opening ++ behind⟩, [], by simp, opened behind, ?_⟩
    intro later lexing none
    rw [lexing.eq_nil none]
    exact .unclosed enclosure behind unclosed
  · refine ⟨⟨enclosure.kind true, enclosure.opening ++ body⟩, rest, by simp, opened body, ?_⟩
    rintro later _ rfl
    exact .closed enclosure body later first

theorem begins_lineComment (behind : Text) : BeginsWithLexeme ('/' :: '/' :: behind) := by
  have split := List.takeWhile_append_dropWhile (p := (· != '\n')) (l := behind)
  refine ⟨⟨.lineComment, '/' :: '/' :: behind.takeWhile (· != '\n')⟩, behind.dropWhile (· != '\n'),
    by simp [split], List.cons_ne_nil _ _, ?_⟩
  rintro later _ same
  refine .lineComment _ later (fun line => ?_) fun c head => ?_
  · simpa using List.mem_takeWhile_imp line
  · rw [same] at head
    simpa using Text.stops_dropWhile _ behind c head

theorem begins_code (first : Char) (behind : Text) (code : isCode first = true) :
    BeginsWithLexeme (first :: behind) := by
  have taken : (first :: behind).takeWhile isCode = first :: behind.takeWhile isCode :=
    List.takeWhile_cons_of_pos code
  have split := List.takeWhile_append_dropWhile (p := isCode) (l := first :: behind)
  rw [taken] at split
  refine ⟨⟨.code, first :: behind.takeWhile isCode⟩, (first :: behind).dropWhile isCode, split.symm,
    List.cons_ne_nil _ _, ?_⟩
  rintro later lexing same
  refine .code _ later (List.cons_ne_nil _ _) (fun c member => ?_) (lexing.head_code.mpr fun c head => ?_)
  · rw [← taken] at member
    exact List.mem_takeWhile_imp member
  · rw [same] at head
    exact Text.stops_dropWhile isCode _ c head

theorem begins_slash (behind : Text) : BeginsWithLexeme ('/' :: behind) := by
  by_cases line : behind.head? = some '/'
  · obtain ⟨rest, rfl⟩ := List.head?_eq_some_iff.mp line
    exact begins_lineComment rest
  · by_cases block : behind.head? = some '*'
    · obtain ⟨rest, rfl⟩ := List.head?_eq_some_iff.mp block
      exact begins_enclosure .comment rest
    · refine ⟨⟨.slash, ['/']⟩, behind, rfl, List.cons_ne_nil _ _, ?_⟩
      rintro later _ rfl
      exact .slash later ⟨line, block⟩

theorem begins (text : Text) (some_char : text ≠ []) : BeginsWithLexeme text := by
  obtain ⟨first, behind, rfl⟩ := List.exists_cons_of_ne_nil some_char
  have starts := Mode.starts first
  generalize Mode.start first = mode at starts
  cases starts with
  | slash => exact begins_slash behind
  | quote quote => exact begins_enclosure (.string quote) behind
  | code notSlash unquoted => exact begins_code first behind ((isCode_iff first).mpr ⟨notSlash, unquoted⟩)

/-- Every text has a lexing. -/
theorem exists_lexing (text : Text) : ∃ tokens, Lexing tokens ∧ texts tokens = text := by
  -- What is behind the first lexeme is any shorter text, so the induction is on the length.
  induction length : text.length using Nat.strong_induction_on generalizing text with
  | _ size ih =>
      by_cases some_char : text = []
      · exact ⟨[], .nil, some_char.symm⟩
      · obtain ⟨token, rest, rfl, visible, fits⟩ := begins text some_char
        have shorter : rest.length < size := by
          have wide := List.length_pos_of_ne_nil visible
          rw [← length, List.length_append]
          omega
        obtain ⟨later, lexing, same⟩ := ih rest.length shorter rest rfl
        exact ⟨token :: later, .cons (fits later lexing same) lexing, by rw [texts_cons, same]⟩

theorem tokenize_lexing (text : Text) : Lexing (tokenize text) := by
  obtain ⟨tokens, lexing, rfl⟩ := exists_lexing text
  rw [lexing.scanned]
  exact lexing

theorem getElem?_placed (start : Nat) (tokens : List Token) (index : Nat) :
    (placed start tokens)[index]? = tokens[index]?.map fun token =>
      (start + Text.byteLength (texts (tokens.take index)), token) := by
  induction tokens generalizing start index with
  | nil => rfl
  | cons token tokens ih =>
      cases index with
      | zero => rfl
      | succ index =>
          rw [placed, List.getElem?_cons_succ, ih, List.getElem?_cons_succ, List.take_succ_cons,
            texts_cons, Text.byteLength_append, Nat.add_assoc]

end Token

/-- The tokens of a text are its only lexing, and a token stands as many bytes behind the start as the
tokens in front of it have. -/
theorem tokenize_only_lexing (text : Text) :
    (∀ tokens, tokenize text = tokens ↔ Token.Lexing tokens ∧ Token.texts tokens = text) ∧
      ∀ index, (placed 0 (tokenize text))[index]? = (tokenize text)[index]?.map fun token =>
        (Text.byteLength (Token.texts ((tokenize text).take index)), token) := by
  refine ⟨fun tokens => ⟨?_, ?_⟩, fun index => ?_⟩
  · rintro rfl
    exact ⟨Token.tokenize_lexing text, Token.tokenize_text text⟩
  · rintro ⟨lexing, rfl⟩
    exact lexing.scanned
  · simpa using Token.getElem?_placed 0 (tokenize text) index

-- A division in front of an escaped quote, a comment that `/*/` does not close, and an open string.
example : tokenize "é/'\\''/*/ */\"/".toList =
    [⟨.code, ['é']⟩, ⟨.slash, ['/']⟩, ⟨.string .single true, "'\\''".toList⟩,
      ⟨.blockComment true, "/*/ */".toList⟩, ⟨.string .double false, "\"/".toList⟩] := by
  decide

end ScriptSense
