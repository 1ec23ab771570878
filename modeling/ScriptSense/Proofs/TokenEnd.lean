import Mathlib.Data.List.Induction
import ScriptSense.Proofs.Blanking

/-!
How tokens begin and end. The text of a token in progress shows what its mode has read so far. A block
comment and a string end with a character of their own; any other token ends at the character behind it,
and that one decides what may follow.
-/
namespace ScriptSense

namespace Token

inductive Mode.Holds : Mode → Text → Prop where
  | start (c : Char) : Holds (.start c) [c]
  | extend {mode next : Mode} {text : Text} {c : Char} (before : Holds mode text)
      (grows : mode.step c = .extend next) : Holds next (text ++ [c])

def Mode.Shows : Mode → Text → Prop
  | .code, text => ∀ c ∈ text, isCode c = true
  | .slash, text => text = ['/']
  | .lineComment, text | .blockComment _, text => text.head? = some '/'
  | .string _ _, _ => True

theorem start_shows (c : Char) : (Mode.start c).Shows [c] := by
  have starts := Mode.starts c
  generalize Mode.start c = mode at starts ⊢
  cases starts with
  | slash => rfl
  | quote => trivial
  | code notSlash unquoted => simpa [Mode.Shows] using (isCode_iff c).mpr ⟨notSlash, unquoted⟩

theorem step_shows (mode next : Mode) (text : Text) (c : Char) (shown : mode.Shows text)
    (grows : mode.step c = .extend next) : next.Shows (text ++ [c]) := by
  have longer (head : text.head? = some '/') : (text ++ [c]).head? = some '/' := by
    rw [List.head?_append, head]
    rfl
  cases Mode.takes_of grows with
  | code same =>
      have here := start_shows c
      rw [same] at here
      exact List.forall_mem_append.mpr ⟨shown, here⟩
  | line | block =>
      obtain rfl : text = ['/'] := shown
      rfl
  | lineComment | blockComment => exact longer shown
  | escaped | backslash | string => trivial

theorem Mode.holds_code (first : Char) (text : Text) (code : ∀ c ∈ first :: text, isCode c = true) :
    Mode.Holds .code (first :: text) := by
  induction text using List.reverseRecOn with
  | nil => exact start_code first (code first List.mem_cons_self) ▸ .start first
  | append_singleton text last ih =>
      rw [← List.cons_append, List.forall_mem_append] at code
      have start := start_code last (code.2 last List.mem_cons_self)
      exact .extend (ih code.1) (by rw [Mode.step, if_pos start])

namespace Mode.Holds

variable {mode : Mode} {text : Text} (holds : mode.Holds text)
include holds

theorem shows_mode : mode.Shows text := by
  induction holds with
  | start c => exact start_shows c
  | extend _ grows ih => exact step_shows _ _ _ _ ih grows

theorem some_char : text ≠ [] := by
  cases holds with
  | start c => exact List.cons_ne_nil c []
  | extend _ _ => simp

/-- Behind the text the scanner is in the mode. -/
theorem scan (rest : Text) : tokenize (text ++ rest) = Token.scan (some (mode, text.reverse)) rest := by
  induction holds generalizing rest with
  | start c => rfl
  | @extend mode next text c _ grows ih =>
      rw [List.append_assoc, ih, List.singleton_append, Token.scan, grows, List.reverse_append]
      rfl

/-- The text is a token where the character behind it goes on with none of that mode. -/
theorem stop (rest : Text) (stops : ∀ c, rest.head? = some c → mode.step c = .restart) :
    tokenize (text ++ rest) = ⟨mode.kind false, text⟩ :: tokenize rest := by
  rw [holds.scan]
  cases rest with
  | nil => simp [Token.scan, tokenize]
  | cons first rest =>
      rw [Token.scan, stops first rfl, List.reverse_reverse]
      rfl

theorem close (c : Char) (closes : mode.step c = .close) (rest : Text) :
    tokenize (text ++ [c] ++ rest) = ⟨mode.kind true, text ++ [c]⟩ :: tokenize rest := by
  rw [List.append_assoc, holds.scan, List.singleton_append, Token.scan, closes]
  simp [tokenize]

end Mode.Holds

/-- A slash is a token of its own in front of what makes no comment of it. -/
theorem tokenize_slash (rest : Text) (alone : rest.head? ≠ some '/' ∧ rest.head? ≠ some '*') :
    tokenize ('/' :: rest) = ⟨.slash, ['/']⟩ :: tokenize rest := by
  have held : Mode.Holds .slash ['/'] := .start '/'
  refine held.stop rest fun c head => ?_
  rw [Mode.step, if_neg, if_neg]
  · rintro rfl
    exact alone.2 head
  · rintro rfl
    exact alone.1 head

theorem Mode.string_goes_on (quote : Quote) (escaped : Bool) (rest : Text)
    (stops : ∀ c, rest.head? = some c → (Mode.string quote escaped).step c = .restart) :
    rest = [] := by
  cases rest with
  | nil => rfl
  | cons first rest => cases Mode.takes_of (stops first rfl)

/-- How a token ends: with a character of its own, or at a character behind it that begins the next
token, or at the end of the text. -/
inductive Ends (token : Token) (rest : Text) : Prop where
  | closed (mode : Mode) (text : Text) (c : Char) (holds : mode.Holds text)
      (closes : mode.step c = .close) (shape : token = ⟨mode.kind true, text ++ [c]⟩)
  | before (mode : Mode) (holds : mode.Holds token.text)
      (stops : ∀ c, rest.head? = some c → mode.step c = .restart) (kind : token.kind = mode.kind false)

theorem scan_ends (state : Option (Mode × Text)) (text : Text) (token : Token) (later : List Token)
    (holds : ∀ mode held, state = some (mode, held) → mode.Holds held.reverse)
    (scanned : scan state text = token :: later) :
    ∃ rest, heldText state ++ text = token.text ++ rest ∧ tokenize rest = later ∧ Ends token rest := by
  induction text generalizing state with
  | nil =>
      cases state with
      | none => cases scanned
      | some progress =>
          obtain ⟨rfl, rfl⟩ := List.cons.inj scanned
          exact ⟨[], rfl, rfl, .before _ (holds _ _ rfl) (by rintro _ ⟨⟩) rfl⟩
  | cons first text ih =>
      cases state with
      | none =>
          refine ih (some (.start first, [first])) ?_ scanned
          rintro _ _ ⟨⟩
          exact .start first
      | some progress =>
          obtain ⟨mode, held⟩ := progress
          have before := holds mode held rfl
          rw [scan] at scanned
          cases step : mode.step first with
          | extend next =>
              rw [step] at scanned
              have further := ih (some (next, first :: held))
              simp only [heldText, List.reverse_cons, List.append_assoc] at further ⊢
              refine further ?_ scanned
              rintro _ _ ⟨⟩
              rw [List.reverse_cons]
              exact .extend before step
          | close =>
              rw [step] at scanned
              obtain ⟨rfl, rfl⟩ := List.cons.inj scanned
              exact ⟨text, by simp [heldText], rfl,
                .closed mode held.reverse first before step (by simp)⟩
          | restart =>
              rw [step] at scanned
              obtain ⟨rfl, rfl⟩ := List.cons.inj scanned
              refine ⟨first :: text, rfl, rfl, .before mode before ?_ rfl⟩
              rintro _ ⟨⟩
              exact step

theorem first_token (text : Text) (token : Token) (later : List Token)
    (scanned : tokenize text = token :: later) :
    ∃ rest, text = token.text ++ rest ∧ tokenize rest = later ∧ Ends token rest :=
  scan_ends none text token later (by rintro _ _ ⟨⟩) scanned

namespace Ends

variable {token : Token} {rest : Text} (ends : Ends token rest)
include ends

theorem some_char : token.text ≠ [] := by
  cases ends with
  | closed mode text c holds closes shape =>
      rw [shape]
      simp
  | before mode holds stops kind => exact holds.some_char

theorem comment_head (kind : token.kind.isComment = true) : token.text.head? = some '/' := by
  cases ends with
  | closed mode text c holds closes shape =>
      subst shape
      have shown := holds.shows_mode
      cases Mode.takes_of closes with
      | blockEnd =>
          have head : text.head? = some '/' := shown
          rw [List.head?_append, head]
          rfl
      | stringEnd => cases kind
  | before mode holds stops shape =>
      have shown := holds.shows_mode
      rw [shape] at kind
      cases mode with
      | lineComment | blockComment star => exact shown
      | _ => cases kind

theorem comment_closed (kind : token.kind = .blockComment true) :
    ∃ front, token.text = front ++ ['/'] := by
  cases ends with
  | closed mode text c holds closes shape =>
      subst shape
      cases Mode.takes_of closes with
      | blockEnd => exact ⟨text, rfl⟩
      | stringEnd => cases kind
  | before mode holds stops shape =>
      rw [shape] at kind
      cases mode <;> cases kind

/-- Nothing follows a string that is not closed. -/
theorem string_open (quote : Quote) (kind : token.kind = .string quote false) : rest = [] := by
  cases ends with
  | closed mode text c holds closes shape =>
      subst shape
      cases mode <;> cases kind
  | before mode holds stops shape =>
      rw [shape] at kind
      cases mode with
      | string quote escaped => exact Mode.string_goes_on quote escaped rest stops
      | _ => cases kind

theorem code_chars (kind : token.kind = .code) : ∀ c ∈ token.text, isCode c = true := by
  cases ends with
  | closed mode text c holds closes shape =>
      subst shape
      cases Mode.takes_of closes <;> cases kind
  | before mode holds stops shape =>
      have shown := holds.shows_mode
      rw [shape] at kind
      cases mode with
      | code => exact shown
      | _ => cases kind

/-- A slash that is a token of its own opens no comment. -/
theorem slash_alone (kind : token.kind = .slash) :
    token.text = ['/'] ∧ rest.head? ≠ some '/' ∧ rest.head? ≠ some '*' := by
  cases ends with
  | closed mode text c holds closes shape =>
      subst shape
      cases Mode.takes_of closes <;> cases kind
  | before mode holds stops shape =>
      have shown := holds.shows_mode
      rw [shape] at kind
      cases mode with
      | slash =>
          refine ⟨shown, ?_, ?_⟩
          · intro head
            cases stops '/' head
          · intro head
            cases stops '*' head
      | _ => cases kind

/-- Only a line break follows a comment that does not end by itself. -/
theorem comment_open (comment : token.kind.isComment = true) (kind : token.kind ≠ .blockComment true)
    (c : Char) (head : rest.head? = some c) : c = '\n' := by
  cases ends with
  | closed mode text c holds closes shape =>
      subst shape
      cases Mode.takes_of closes with
      | blockEnd => exact absurd rfl kind
      | stringEnd => cases comment
  | before mode holds stops shape =>
      rw [shape] at comment
      cases Mode.takes_of (stops c head) with
      | lineEnd => rfl
      | codeEnd | slashEnd => cases comment

end Ends

theorem tokenize_nil (text : Text) (scanned : tokenize text = []) : text = [] := by
  have whole := tokenize_text text
  rw [scanned, List.flatMap_nil] at whole
  exact whole.symm

end Token

end ScriptSense
