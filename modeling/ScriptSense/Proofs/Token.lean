import ScriptSense.Token
import Mathlib.Data.List.Basic

/-!
The scanner as a machine: what one character does to the tokens and to the token in progress, and
what a whole text does. Scanning loses no character. A string is closed by the first quote of its kind
behind an even number of backslashes, so its text alone tells whether it was closed.
-/
namespace ScriptSense

def trailingBackslashes (text : Text) : Nat := (Text.takeEndWhile (· == '\\') text).length

def Quote.closes (quote : Quote) (body : Text) : Bool :=
  body.getLast? == some quote.char && trailingBackslashes body.dropLast % 2 == 0

theorem trailingBackslashes_concat (text : Text) (last : Char) :
    trailingBackslashes (text ++ [last]) =
      if last = '\\' then trailingBackslashes text + 1 else 0 := by
  by_cases backslash : last = '\\'
  · simp [trailingBackslashes, Text.takeEndWhile, backslash]
  · simp [trailingBackslashes, Text.takeEndWhile, backslash]

theorem trailingBackslashes_odd (text : Text) (last : Char) :
    trailingBackslashes (text ++ [last]) % 2 = 1 ↔
      last = '\\' ∧ trailingBackslashes text % 2 = 0 := by
  rw [trailingBackslashes_concat]
  split
  · next backslash =>
      simp only [backslash, true_and]
      omega
  · next plain => simp [plain]

theorem Quote.closes_concat (quote : Quote) (body : Text) (last : Char) :
    quote.closes (body ++ [last]) = (last == quote.char && trailingBackslashes body % 2 == 0) := by
  simp [closes]

theorem Quote.char_not_backslash (quote : Quote) : quote.char ≠ '\\' := by
  cases quote with
  | double => decide
  | single => decide

namespace Token

inductive Mode.Starts : Char → Mode → Prop where
  | slash : Starts '/' .slash
  | quote (quote : Quote) : Starts quote.char (.string quote false)
  | code {c : Char} (notSlash : c ≠ '/') (unquoted : ∀ quote : Quote, c ≠ quote.char) : Starts c .code

theorem Mode.starts (c : Char) : Mode.Starts c (Mode.start c) := by
  rw [start]
  split
  · next slash => exact slash ▸ .slash
  · next notSlash =>
      split
      · next double => exact double ▸ .quote .double
      · next notDouble =>
          split
          · next single => exact single ▸ .quote .single
          · next notSingle =>
              refine .code notSlash fun quote => ?_
              cases quote with
              | double => exact notDouble
              | single => exact notSingle

inductive Mode.Takes : Mode → Char → Step → Prop where
  | code {c : Char} (same : start c = .code) : Takes .code c (.extend .code)
  | codeEnd {c : Char} (other : start c ≠ .code) : Takes .code c .restart
  | line : Takes .slash '/' (.extend .lineComment)
  | block : Takes .slash '*' (.extend (.blockComment false))
  | slashEnd {c : Char} (notLine : c ≠ '/') (notBlock : c ≠ '*') : Takes .slash c .restart
  | lineComment {c : Char} (within : c ≠ '\n') : Takes .lineComment c (.extend .lineComment)
  | lineEnd : Takes .lineComment '\n' .restart
  | blockComment {star : Bool} {c : Char} (within : ¬(star = true ∧ c = '/')) :
      Takes (.blockComment star) c (.extend (.blockComment (c = '*')))
  | blockEnd : Takes (.blockComment true) '/' .close
  | escaped {quote : Quote} {c : Char} : Takes (.string quote true) c (.extend (.string quote false))
  | backslash {quote : Quote} : Takes (.string quote false) '\\' (.extend (.string quote true))
  | string {quote : Quote} {c : Char} (plain : c ≠ '\\') (within : c ≠ quote.char) :
      Takes (.string quote false) c (.extend (.string quote false))
  | stringEnd {quote : Quote} : Takes (.string quote false) quote.char .close

theorem Mode.takes (mode : Mode) (c : Char) : mode.Takes c (mode.step c) := by
  cases mode with
  | code =>
      rw [step]
      split
      · next same => exact .code same
      · next other => exact .codeEnd other
  | slash =>
      rw [step]
      split
      · next line => exact line ▸ .line
      · next notLine =>
          split
          · next block => exact block ▸ .block
          · next notBlock => exact .slashEnd notLine notBlock
  | lineComment =>
      rw [step]
      split
      · next line => exact line ▸ .lineEnd
      · next within => exact .lineComment within
  | blockComment star =>
      rw [step]
      split
      · next ending =>
          rw [Bool.and_eq_true, decide_eq_true_eq] at ending
          obtain ⟨rfl, rfl⟩ := ending
          exact .blockEnd
      · next within => exact .blockComment (by simpa using within)
  | string quote escaped =>
      cases escaped with
      | true => exact .escaped
      | false =>
          rw [step]
          split
          · next backslash => exact backslash ▸ .backslash
          · next plain =>
              split
              · next same => exact same ▸ .stringEnd
              · next within => exact .string plain within

/-- The rules by which a step of the scanner can have come about. -/
theorem Mode.takes_of {mode : Mode} {c : Char} {step : Step} (taken : mode.step c = step) :
    mode.Takes c step := taken ▸ mode.takes c

def heldText : Option (Mode × Text) → Text
  | none => []
  | some (_, held) => held.reverse

def advance (state : Option (Mode × Text)) (c : Char) : List Token × Option (Mode × Text) :=
  match state with
  | none => ([], some (.start c, [c]))
  | some (mode, held) =>
      match mode.step c with
      | .extend next => ([], some (next, c :: held))
      | .close => ([⟨mode.kind true, (c :: held).reverse⟩], none)
      | .restart => ([⟨mode.kind false, held.reverse⟩], some (.start c, [c]))

/-- The tokens that end within a text, and the token that is in progress behind it. -/
def run : Option (Mode × Text) → Text → List Token × Option (Mode × Text)
  | state, [] => ([], state)
  | state, first :: rest =>
      let (tokens, next) := advance state first
      let (later, last) := run next rest
      (tokens ++ later, last)

theorem scan_advance (state : Option (Mode × Text)) (first : Char) (rest : Text) :
    scan state (first :: rest) = (advance state first).1 ++ scan (advance state first).2 rest := by
  cases state with
  | none => rfl
  | some progress =>
      obtain ⟨mode, held⟩ := progress
      rw [scan, advance]
      cases mode.step first with
      | extend next => rfl
      | close => rfl
      | restart => rfl

theorem scan_run (state : Option (Mode × Text)) (front back : Text) :
    scan state (front ++ back) = (run state front).1 ++ scan (run state front).2 back := by
  induction front generalizing state with
  | nil => rfl
  | cons first front ih =>
      rw [List.cons_append, scan_advance, ih, ← List.append_assoc]
      rfl

theorem tokenize_run (text : Text) :
    tokenize text = (run none text).1 ++ scan (run none text).2 [] := by
  have split := scan_run none text []
  rwa [List.append_nil] at split

theorem advance_text (state : Option (Mode × Text)) (c : Char) :
    (advance state c).1.flatMap (·.text) ++ heldText (advance state c).2 = heldText state ++ [c] := by
  cases state with
  | none => rfl
  | some progress =>
      obtain ⟨mode, held⟩ := progress
      rw [advance]
      cases mode.step c with
      | extend next => simp [heldText]
      | close => simp [heldText]
      | restart => simp [heldText]

theorem run_text (state : Option (Mode × Text)) (text : Text) :
    (run state text).1.flatMap (·.text) ++ heldText (run state text).2 = heldText state ++ text := by
  induction text generalizing state with
  | nil => simp [run]
  | cons first rest ih =>
      have here := advance_text state first
      have later := ih (advance state first).2
      rw [run, List.flatMap_append, List.append_assoc, later, ← List.append_assoc, here,
        List.append_assoc]
      rfl

theorem scan_end_text (state : Option (Mode × Text)) :
    (scan state []).flatMap (·.text) = heldText state := by
  cases state with
  | none => rfl
  | some progress => simp [scan, heldText]

theorem scan_text (state : Option (Mode × Text)) (text : Text) :
    (scan state text).flatMap (·.text) = heldText state ++ text := by
  have split := scan_run state text []
  rw [List.append_nil] at split
  rw [split, List.flatMap_append, scan_end_text, run_text]

/-- Every character is in exactly one token. -/
theorem tokenize_text (text : Text) : (tokenize text).flatMap (·.text) = text := scan_text none text

def Mode.Reads : Mode → Text → Prop
  | .slash, text => text = ['/']
  | .string quote escaped, text =>
      ∃ body, text = quote.char :: body ∧ quote.closes body = false ∧
        (escaped = true ↔ trailingBackslashes body % 2 = 1)
  | _, _ => True

def Delimited (token : Token) : Prop :=
  ∀ quote closed, token.kind = .string quote closed →
    ∃ body, token.text = quote.char :: body ∧ closed = quote.closes body

def StateReads (state : Option (Mode × Text)) : Prop :=
  ∀ mode held, state = some (mode, held) → mode.Reads held.reverse

theorem start_reads (c : Char) : (Mode.start c).Reads [c] := by
  have starts := Mode.starts c
  generalize Mode.start c = mode at starts ⊢
  cases starts with
  | slash => rfl
  | quote quote =>
      have empty : trailingBackslashes [] % 2 = 0 := rfl
      exact ⟨[], rfl, rfl, by simp [empty]⟩
  | code => trivial

theorem not_string (kind : TokenKind) (text : Text) (other : kind.isString = false) :
    Delimited ⟨kind, text⟩ := by
  rintro quote closed rfl
  cases other

theorem stop_delimited (mode : Mode) (text : Text) (reads : mode.Reads text) :
    Delimited ⟨mode.kind false, text⟩ := by
  cases mode with
  | string quote escaped =>
      rintro _ _ ⟨⟩
      obtain ⟨body, shape, unclosed, _⟩ := reads
      exact ⟨body, shape, unclosed.symm⟩
  | _ => exact not_string _ text rfl

def StepReads (mode : Mode) (text : Text) (c : Char) : Step → Prop
  | .extend next => next.Reads (text ++ [c])
  | .close => Delimited ⟨mode.kind true, text ++ [c]⟩
  | .restart => Delimited ⟨mode.kind false, text⟩

-- In a string the scanner only knows whether the next character is escaped; that is the parity of the
-- backslashes at the end, and every rule for a string keeps the two in step.
theorem step_reads (mode : Mode) (text : Text) (c : Char) (reads : mode.Reads text) :
    StepReads mode text c (mode.step c) := by
  have stop := stop_delimited mode text reads
  have taken := mode.takes c
  generalize mode.step c = step at taken ⊢
  cases taken with
  | code | line | block | lineComment | blockComment => trivial
  | codeEnd | slashEnd | lineEnd => exact stop
  | blockEnd => exact not_string _ _ rfl
  | escaped =>
      obtain ⟨body, rfl, _, parity⟩ := reads
      have odd := parity.mp rfl
      refine ⟨body ++ [c], rfl, ?_, ?_⟩
      · rw [Quote.closes_concat]
        simp [odd]
      · rw [trailingBackslashes_odd]
        simp [odd]
  | @backslash quote =>
      obtain ⟨body, rfl, _, parity⟩ := reads
      refine ⟨body ++ ['\\'], rfl, ?_, ?_⟩
      · rw [Quote.closes_concat]
        simp [Ne.symm quote.char_not_backslash]
      · rw [trailingBackslashes_odd]
        simpa using parity
  | string plain within =>
      obtain ⟨body, rfl, _, _⟩ := reads
      refine ⟨body ++ [c], rfl, ?_, ?_⟩
      · rw [Quote.closes_concat]
        simp [within]
      · rw [trailingBackslashes_odd]
        simp [plain]
  | @stringEnd quote =>
      obtain ⟨body, rfl, _, parity⟩ := reads
      rintro _ _ ⟨⟩
      refine ⟨body ++ [quote.char], rfl, ?_⟩
      rw [Quote.closes_concat]
      simpa using parity

theorem advance_reads (state : Option (Mode × Text)) (c : Char) (reads : StateReads state) :
    (∀ token ∈ (advance state c).1, Delimited token) ∧ StateReads (advance state c).2 := by
  have fresh : StateReads (some (.start c, [c])) := by
    rintro _ _ ⟨⟩
    exact start_reads c
  cases state with
  | none => exact ⟨by simp [advance], fresh⟩
  | some progress =>
      obtain ⟨mode, held⟩ := progress
      have step := step_reads mode held.reverse c (reads mode held rfl)
      rw [advance]
      cases taken : mode.step c with
      | extend next =>
          rw [taken] at step
          refine ⟨by simp, ?_⟩
          rintro _ _ ⟨⟩
          rw [List.reverse_cons]
          exact step
      | close =>
          rw [taken] at step
          refine ⟨?_, nofun⟩
          simpa [StepReads] using step
      | restart =>
          rw [taken] at step
          refine ⟨?_, fresh⟩
          simpa [StepReads] using step

theorem run_reads (state : Option (Mode × Text)) (text : Text) (reads : StateReads state) :
    (∀ token ∈ (run state text).1, Delimited token) ∧ StateReads (run state text).2 := by
  induction text generalizing state with
  | nil => exact ⟨by simp [run], reads⟩
  | cons first rest ih =>
      obtain ⟨here, next⟩ := advance_reads state first reads
      obtain ⟨later, last⟩ := ih _ next
      refine ⟨fun token member => ?_, last⟩
      rcases List.mem_append.mp member with ended | after
      · exact here token ended
      · exact later token after

/-- Every string of a text shows its quotes. -/
theorem tokenize_delimited (text : Text) : ∀ token ∈ tokenize text, Delimited token := by
  obtain ⟨ended, last⟩ := run_reads none text nofun
  intro token member
  rw [tokenize_run, List.mem_append] at member
  rcases member with before | final
  · exact ended token before
  · cases state : (run none text).2 with
    | none => simp [state, scan] at final
    | some progress =>
        obtain ⟨mode, held⟩ := progress
        rw [state, scan, List.mem_singleton] at final
        rw [final]
        exact stop_delimited mode _ (last mode held state)

end Token

end ScriptSense
