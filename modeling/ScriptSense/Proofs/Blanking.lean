import ScriptSense.Layout
import ScriptSense.Proofs.Class
import ScriptSense.Proofs.Token

/-!
Blanking of a text that goes on with code. Where a text ends outside of strings and comments, code
behind it is kept as it is, and what follows the code is blanked as it is behind any other code.
-/
namespace ScriptSense

def isCode (c : Char) : Bool := c != '/' && c != '"' && c != '\''

theorem blank_code (c : Char) (blank : isBlank c = true) : isCode c = true := by
  rw [isCode, Bool.and_eq_true, Bool.and_eq_true, bne_iff_ne, bne_iff_ne, bne_iff_ne]
  exact ⟨⟨kept_ne isBlank c '/' blank rfl, kept_ne isBlank c '"' blank rfl⟩,
    kept_ne isBlank c '\'' blank rfl⟩

theorem isCode_iff (c : Char) : isCode c = true ↔ c ≠ '/' ∧ ∀ quote : Quote, c ≠ quote.char := by
  rw [isCode, Bool.and_eq_true, Bool.and_eq_true, bne_iff_ne, bne_iff_ne, bne_iff_ne, and_assoc]
  refine and_congr_right' ⟨fun unquoted quote => ?_, fun unquoted => ?_⟩
  · cases quote with
    | double => exact unquoted.1
    | single => exact unquoted.2
  · exact ⟨unquoted .double, unquoted .single⟩

theorem Quote.char_not_code (quote : Quote) : isCode quote.char = false := by
  cases quote with
  | double => decide
  | single => decide

namespace Token

theorem start_code (c : Char) (code : isCode c = true) : Mode.start c = .code := by
  simp only [isCode, Bool.and_eq_true, bne_iff_ne] at code
  rw [Mode.start, if_neg code.1.1, if_neg code.1.2, if_neg code.2]

def behindCode (strings : Bool) (text : Text) : Text :=
  (scan (some (.code, [])) text).flatMap (blanked strings)

theorem scan_behindCode (strings : Bool) (held rest : Text) :
    (scan (some (.code, held)) rest).flatMap (blanked strings) =
      held.reverse ++ behindCode strings rest := by
  induction rest generalizing held with
  | nil => simp [behindCode, scan, blanked, Mode.kind]
  | cons first rest ih =>
      by_cases code : Mode.start first = .code
      · have step : Mode.step .code first = .extend .code := by rw [Mode.step, if_pos code]
        have here := ih (first :: held)
        have alone := ih [first]
        simp only [behindCode, scan, step] at here alone ⊢
        rw [here, alone]
        simp
      · have step : Mode.step .code first = .restart := by rw [Mode.step, if_neg code]
        simp [behindCode, scan, step, blanked, Mode.kind]

theorem behindCode_append (strings : Bool) (text rest : Text)
    (code : ∀ c ∈ text, isCode c = true) :
    behindCode strings (text ++ rest) = text ++ behindCode strings rest := by
  induction text with
  | nil => rfl
  | cons first text ih =>
      have start := start_code first (code first List.mem_cons_self)
      have step : Mode.step .code first = .extend .code := by rw [Mode.step, if_pos start]
      have later := ih fun c member => code c (List.mem_cons_of_mem first member)
      rw [List.cons_append, List.cons_append, ← later, behindCode, scan, step]
      exact scan_behindCode strings [first] (text ++ rest)

/-- Outside of strings and comments no token is in progress, or one of code, or a `/` that may still
be a division. -/
theorem run_outside (text : Text) (outside : endsInTrivia text = false) :
    ∀ mode held, (run none text).2 = some (mode, held) → mode = .code ∨ mode = .slash := by
  intro mode held progress
  rw [endsInTrivia, tokenize_run, progress, scan, List.getLast?_concat] at outside
  cases mode with
  | code => exact .inl rfl
  | slash => exact .inr rfl
  | lineComment => cases outside
  | blockComment star => cases outside
  | string quote escaped => cases outside

end Token

-- A `/` at the end of the text waits for the next character, and a `*` would make it a comment.
theorem blankTrivia_behind (strings : Bool) (lead : Text) (first : Char) (rest : Text)
    (code : isCode first = true) (notStar : first ≠ '*') (outside : endsInTrivia lead = false) :
    blankTrivia strings (lead ++ first :: rest) =
      blankTrivia strings lead ++ Token.behindCode strings (first :: rest) := by
  have start := Token.start_code first code
  have notSlash : first ≠ '/' := by
    rintro rfl
    exact absurd code (by decide)
  have fresh : (Token.scan (some (.code, [first])) rest).flatMap (Token.blanked strings) =
      Token.behindCode strings (first :: rest) := by
    rw [Token.behindCode, Token.scan, Token.Mode.step, if_pos start]
  have modes := Token.run_outside lead outside
  rw [blankTrivia, blankTrivia, Token.tokenize_run lead, tokenize, Token.scan_run, List.flatMap_append,
    List.flatMap_append, List.append_assoc]
  congr 1
  cases progress : (Token.run none lead).2 with
  | none => simp [Token.scan, start, fresh]
  | some state =>
      obtain ⟨mode, held⟩ := state
      rcases modes mode held progress with rfl | rfl
      · rw [Token.scan_behindCode]
        simp [Token.scan, Token.blanked, Token.Mode.kind]
      · simp [Token.scan, Token.Mode.step, notSlash, notStar, start, fresh]

theorem blankTrivia_append (lead : Text) (first : Char) (rest : Text)
    (code : ∀ c ∈ first :: rest, isCode c = true) (notStar : first ≠ '*')
    (outside : endsInTrivia lead = false) :
    blankTrivia true (lead ++ first :: rest) = blankTrivia true lead ++ first :: rest := by
  have kept := Token.behindCode_append true (first :: rest) [] code
  rw [List.append_nil] at kept
  rw [blankTrivia_behind true lead first rest (code first List.mem_cons_self) notStar outside, kept]
  exact congrArg (blankTrivia true lead ++ ·) (List.append_nil _)

end ScriptSense
