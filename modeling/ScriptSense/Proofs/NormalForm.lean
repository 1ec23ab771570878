import ScriptSense.Proofs.StrippedLiteral
import ScriptSense.Proofs.Uncommented

/-!
The normal form of a script: nothing is left to blank and no handle stands apart from its type. Every
text is in this form once it is sanitized, and a text in this form is not changed. That nothing is left
to blank is said along the characters of the text, so it can be followed through both passes; what it
means for the tokens is read off in the end.
-/
namespace ScriptSense

inductive Token.Inert : Token → Prop where
  | slash : Inert ⟨.slash, ['/']⟩
  | code (text : Text) : Inert ⟨.code, text⟩
  | literal (quote : Quote) (interior : Gap) : Inert (quote.literal interior.text)
  | unclosed (quote : Quote) (interior : Gap) :
      Inert ⟨.string quote false, quote.char :: interior.text⟩

/-- Code, and strings with nothing but blanks in them; only the last one may be open. -/
inductive Blanked : Text → Prop where
  | nil : Blanked []
  | code (c : Char) {rest : Text} (code : isCode c = true) (behind : Blanked rest) :
      Blanked (c :: rest)
  | slash {rest : Text} (alone : rest.head? ≠ some '/' ∧ rest.head? ≠ some '*')
      (behind : Blanked rest) : Blanked ('/' :: rest)
  | literal (quote : Quote) (interior : Gap) {rest : Text} (behind : Blanked rest) :
      Blanked (literalText quote interior.text ++ rest)
  | unclosed (quote : Quote) (interior : Gap) : Blanked (quote.char :: interior.text)

namespace Gap

theorem unquoted (gap : Gap) (quote : Quote) : ∀ c ∈ gap.text, c ≠ '\\' ∧ c ≠ quote.char := by
  intro c member
  have blank := gap.blank c member
  refine ⟨kept_ne isBlank c '\\' blank rfl, kept_ne isBlank c quote.char blank ?_⟩
  cases quote with
  | double => rfl
  | single => rfl

def ofBlanking (text : Text) : Gap where
  text := ScriptSense.blank text
  blank c member := by simpa using List.filter_eq_nil_iff.mp (blank_marks text) c member

end Gap

theorem blank_gap (gap : Gap) : blank gap.text = gap.text := by
  have kept : gap.text.flatMap blankChar = gap.text.flatMap fun c => [c] :=
    List.flatMap_congr fun c member => by rw [blankChar, if_pos (gap.blank c member)]
  rw [blank, kept, List.flatMap_singleton']

namespace Token

theorem Inert.blanked {token : Token} (inert : token.Inert) : token.blanked true = token.text := by
  cases inert with
  | slash => rfl
  | code text => rfl
  | literal quote interior =>
      simp [Token.blanked, Quote.literal, blankInterior, literalText, blank_gap]
  | unclosed quote interior => simp [Token.blanked, blankInterior, blank_gap]

/-- Code is inert however it is divided into tokens. -/
theorem Joined.inert {left right : List Token} (joined : Joined left right) :
    (∀ token ∈ left, token.Inert) ↔ ∀ token ∈ right, token.Inert := by
  induction joined with
  | refl tokens => rfl
  | symm _ ih => exact ih.symm
  | trans _ _ first second => exact first.trans second
  | cons token _ ih => rw [List.forall_mem_cons, List.forall_mem_cons, ih]
  | empty tokens => simp [Inert.code]
  | split front back tokens => simp [Inert.code]

theorem Mode.holds_string (quote : Quote) (interior : Gap) :
    Mode.Holds (.string quote false) (quote.char :: interior.text) := by
  obtain ⟨text, blank⟩ := interior
  induction text using List.reverseRecOn with
  | nil => exact quote.start_char ▸ .start quote.char
  | append_singleton text last ih =>
      have plain := Gap.unquoted ⟨text ++ [last], blank⟩ quote last (by simp)
      have before := ih fun c member => blank c (List.mem_append_left _ member)
      exact .extend before (by rw [Mode.step, if_neg plain.1, if_neg plain.2])

end Token

namespace Blanked

theorem codes (run : Text) {rest : Text} (code : ∀ c ∈ run, isCode c = true) (behind : Blanked rest) :
    Blanked (run ++ rest) := by
  induction run with
  | nil => exact behind
  | cons first run ih =>
      rw [List.forall_mem_cons] at code
      exact .code first code.1 (ih code.2)

theorem gap (gap : Gap) {rest : Text} (behind : Blanked rest) : Blanked (gap.text ++ rest) :=
  codes gap.text (fun c member => blank_code c (gap.blank c member)) behind

theorem tail {c : Char} {rest : Text} (code : isCode c = true) (blanked : Blanked (c :: rest)) :
    Blanked rest := by
  have unquoted (quote : Quote) : c ≠ quote.char := kept_ne isCode c quote.char code quote.char_not_code
  generalize whole : c :: rest = text at blanked
  cases blanked with
  | nil => cases whole
  | code other _ behind =>
      obtain ⟨rfl, rfl⟩ := List.cons.inj whole
      exact behind
  | slash _ behind =>
      obtain ⟨rfl, rfl⟩ := List.cons.inj whole
      exact behind
  | literal quote interior behind => exact absurd (List.cons.inj whole).1 (unquoted quote)
  | unclosed quote interior => exact absurd (List.cons.inj whole).1 (unquoted quote)

theorem behind (run : Text) {rest : Text} (code : ∀ c ∈ run, isCode c = true)
    (blanked : Blanked (run ++ rest)) : Blanked rest := by
  induction run with
  | nil => exact blanked
  | cons first run ih =>
      rw [List.forall_mem_cons] at code
      exact ih code.2 (blanked.tail code.1)

theorem inert {text : Text} (blanked : Blanked text) : ∀ token ∈ tokenize text, token.Inert := by
  induction blanked with
  | nil => simp [tokenize, Token.scan]
  | @code c rest code _ ih =>
      have joined := Token.Joined.code_front [c] rest (by simpa using code)
      exact joined.inert.mpr (List.forall_mem_cons.mpr ⟨.code [c], ih⟩)
  | @slash rest alone _ ih =>
      rw [Token.tokenize_slash rest alone]
      exact List.forall_mem_cons.mpr ⟨.slash, ih⟩
  | literal quote interior _ ih =>
      rw [tokenize_literal quote interior.text _ (interior.unquoted quote)]
      exact List.forall_mem_cons.mpr ⟨.literal quote interior, ih⟩
  | unclosed quote interior =>
      have scanned := (Token.Mode.holds_string quote interior).stop [] (by simp)
      rw [List.append_nil] at scanned
      rw [scanned]
      exact List.forall_mem_cons.mpr ⟨.unclosed quote interior, List.forall_mem_nil _⟩

end Blanked

namespace Token

/-- Blanking keeps code apart from the strings, and no slash comes to stand in front of another. -/
theorem Ends.blanked {token : Token} {rest : Text} (ends : Ends token rest)
    (delimited : token.Delimited) (behind : Blanked (blankTrivia true rest)) :
    Blanked (token.blanked true ++ blankTrivia true rest) := by
  obtain ⟨kind, text⟩ := token
  cases kind with
  | lineComment => exact behind.gap (.ofBlanking text)
  | blockComment closed => exact behind.gap (.ofBlanking text)
  | code => exact behind.codes text (ends.code_chars rfl)
  | slash =>
      obtain ⟨shape, notSlash, notStar⟩ := ends.slash_alone rfl
      obtain rfl : text = ['/'] := shape
      have head := blankTrivia_head true rest notSlash
      exact .slash ⟨head ▸ notSlash, head ▸ notStar⟩ behind
  | string quote closed =>
      cases closed with
      | true =>
          obtain ⟨interior, rfl⟩ := delimited.closed_text
          have literal := Blanked.literal quote (.ofBlanking interior) behind
          simpa [Token.blanked, blankInterior, literalText, Gap.ofBlanking] using literal
      | false =>
          obtain rfl := ends.string_open quote rfl
          obtain ⟨body, shape, _⟩ := delimited quote false rfl
          subst shape
          have unclosed := Blanked.unclosed quote (.ofBlanking body)
          simpa [Token.blanked, blankInterior, blankTrivia, tokenize, scan, Gap.ofBlanking] using unclosed

end Token

theorem blanked_blankTrivia (text : Text) : Blanked (blankTrivia true text) := by
  induction scanned : tokenize text generalizing text with
  | nil =>
      rw [blankTrivia, scanned]
      exact .nil
  | cons token later ih =>
      obtain ⟨rest, _, behind, ends⟩ := Token.first_token text token later scanned
      have delimited := Token.tokenize_delimited text token (by simp [scanned])
      have whole : blankTrivia true text = token.blanked true ++ blankTrivia true rest := by
        rw [blankTrivia, scanned, List.flatMap_cons, blankTrivia, behind]
      rw [whole]
      exact ends.blanked delimited (ih rest behind)

theorem attachHandles_literal (quote : Quote) (interior : Gap) (rest : Text) :
    attachHandles (literalText quote interior.text ++ rest) =
      literalText quote interior.text ++ attachHandles rest := by
  have inside : attachHandles interior.text = interior.text := by
    simpa [attachHandles] using attachHandles_gap interior []
  rw [literalText_append, literalText_append]
  calc attachHandles (quote.char :: (interior.text ++ quote.char :: rest))
      = quote.char :: attachHandles (interior.text ++ quote.char :: rest) :=
        quote.attachHandles_split [] _
    _ = quote.char :: (interior.text ++ quote.char :: attachHandles rest) := by
        rw [quote.attachHandles_split, inside]

namespace Blanked

theorem pullHandle {text : Text} (blanked : Blanked text) : Blanked (pullHandle text) := by
  by_cases detached : text.takeWhile isInlineBlank ≠ [] ∧
      (text.dropWhile isInlineBlank).head? = some '@'
  · obtain ⟨rest, marked⟩ := List.head?_eq_some_iff.mp detached.2
    have inline (part : Text) : ∀ c ∈ part.takeWhile isInlineBlank, isCode c = true := by
      intro c member
      have blank := List.mem_takeWhile_imp member
      rw [isInlineBlank, Bool.and_eq_true] at blank
      exact blank_code c blank.1
    have spaces (count : Nat) : ∀ c ∈ Text.spaces count, isCode c = true := by
      intro c member
      rw [List.eq_of_mem_replicate member]
      decide
    rw [← List.takeWhile_append_dropWhile (p := isInlineBlank) (l := text), marked,
      ← List.takeWhile_append_dropWhile (p := isInlineBlank) (l := rest)] at blanked
    have later := ((blanked.behind _ (inline text)).tail (by decide)).behind _ (inline rest)
    rw [pullHandle_detached text rest detached.1 marked]
    exact .code '@' (by decide) (later.codes _ (spaces _))
  · rwa [pullHandle_kept text (by tauto)]

theorem attachHandles {text : Text} (blanked : Blanked text) : Blanked (attachHandles text) := by
  induction blanked with
  | nil => exact .nil
  | code c code _ ih =>
      rw [ScriptSense.attachHandles]
      split
      · exact .code c code ih.pullHandle
      · exact .code c code ih
  | @slash rest alone _ ih =>
      have head : (ScriptSense.attachHandles rest).head? = rest.head? := by
        cases rest with
        | nil => rfl
        | cons first rest =>
            obtain ⟨later, shape⟩ := attachHandles_head first rest
            rw [shape]
            rfl
      rw [ScriptSense.attachHandles, if_neg (by decide)]
      exact .slash ⟨head ▸ alone.1, head ▸ alone.2⟩ ih
  | literal quote interior _ ih =>
      rw [attachHandles_literal]
      exact .literal quote interior ih
  | unclosed quote interior =>
      rw [attachHandles_end]
      exact .unclosed quote interior

end Blanked

structure Normal (text : Text) : Prop where
  tokens : ∀ token ∈ tokenize text, token.Inert
  handles : ¬HasDetached text

theorem normal_sanitize (text : Text) : Normal (sanitize text) where
  tokens := (blanked_blankTrivia text).attachHandles.inert
  handles := (allAttached_iff _).mp (allAttached_attachHandles _)

theorem Normal.sanitized {text : Text} (normal : Normal text) : sanitize text = text := by
  have blanked : (tokenize text).flatMap (Token.blanked true) = (tokenize text).flatMap (·.text) :=
    List.flatMap_congr fun token member => (normal.tokens token member).blanked
  rw [sanitize, blankTrivia, blanked, Token.tokenize_text]
  exact (attachHandles_eq_iff text).mpr normal.handles

/-- The normal texts are those that sanitizing does not change. -/
theorem sanitize_eq_iff (text : Text) : sanitize text = text ↔ Normal text := by
  constructor
  · intro same
    rw [← same]
    exact normal_sanitize text
  · exact Normal.sanitized

/-- Sanitizing a sanitized text changes nothing. Its tokens are code, single slashes and strings of
blanks, and no handle in it is separated only by blanks of a line from the end of a type. -/
theorem sanitize_settled (text : Text) :
    sanitize (sanitize text) = sanitize text ∧
      (∀ token ∈ tokenize (sanitize text), token.Inert) ∧ ¬HasDetached (sanitize text) := by
  have normal := normal_sanitize text
  exact ⟨(sanitize_eq_iff _).mpr normal, normal.tokens, normal.handles⟩

end ScriptSense
