import ScriptSense.Proofs.Cut

/-!
Places inside of strings and comments. A text is cut inside of one exactly where a token of the
whole text is a string or a comment whose opening is behind the cut and whose end is not; the kinds
and the lengths of the tokens decide it.
-/
namespace ScriptSense

theorem Text.byteLength_pos (text : Text) (some_char : text ≠ []) : 0 < byteLength text := by
  cases text with
  | nil => exact absurd rfl some_char
  | cons first rest =>
      have wide := first.utf8Size_pos
      rw [byteLength]
      omega

namespace Token

def openAt (token : Token) (offset : Nat) : Bool :=
  let unfinished := offset < Text.byteLength token.text
  match token.kind with
  | .lineComment => 2 ≤ offset
  | .blockComment closed => 2 ≤ offset && (unfinished || !closed)
  | .string _ closed => 1 ≤ offset && (unfinished || !closed)
  | .slash | .code => false

/-- A cut between two tokens belongs to the first of them. -/
def cutOpen : List Token → Nat → Bool
  | [], _ => false
  | token :: rest, offset =>
      if offset ≤ Text.byteLength token.text then token.openAt offset
      else cutOpen rest (offset - Text.byteLength token.text)

theorem cutOpen_here (token : Token) (rest : List Token) (offset : Nat)
    (within : offset ≤ Text.byteLength token.text) :
    cutOpen (token :: rest) offset = token.openAt offset := by
  rw [cutOpen, if_pos within]

theorem cutOpen_later (token : Token) (rest : List Token) (offset : Nat) (behind : 0 < offset) :
    cutOpen (token :: rest) (Text.byteLength token.text + offset) = cutOpen rest offset := by
  rw [cutOpen, if_neg (by omega), Nat.add_sub_cancel_left]

theorem cutOpen_start (tokens : List Token) : cutOpen tokens 0 = false := by
  cases tokens with
  | nil => rfl
  | cons token rest =>
      obtain ⟨kind, text⟩ := token
      rw [cutOpen_here _ _ _ (Nat.zero_le _)]
      cases kind <;> rfl

def unended (tokens : List Token) : Bool := tokens.getLast?.any (·.kind.isUnterminated)

theorem unended_tokenize (text : Text) : endsInTrivia text = unended (tokenize text) := by
  rw [endsInTrivia, unended]
  cases (tokenize text).getLast? <;> rfl

theorem unended_cons (token : Token) (tokens : List Token) (some_token : tokens ≠ []) :
    unended (token :: tokens) = unended tokens := by
  rw [unended, unended, List.getLast?_cons_of_ne_nil some_token]

def Mode.Opened : Mode → Text → Prop
  | .code, _ => True
  | .slash, text => text = ['/']
  | .lineComment, text | .blockComment _, text => 2 ≤ Text.byteLength text
  | .string _ _, text => 1 ≤ Text.byteLength text

theorem start_opened (c : Char) : (Mode.start c).Opened [c] := by
  have starts := Mode.starts c
  generalize Mode.start c = mode at starts ⊢
  cases starts with
  | slash => rfl
  | quote quote => exact quote.char.utf8Size_pos
  | code => trivial

theorem step_opened (mode next : Mode) (text : Text) (c : Char) (opened : mode.Opened text)
    (grows : mode.step c = .extend next) : next.Opened (text ++ [c]) := by
  have length : Text.byteLength (text ++ [c]) = Text.byteLength text + c.utf8Size :=
    Text.byteLength_append text [c]
  have longer (width : Nat) (enough : width ≤ Text.byteLength text) :
      width ≤ Text.byteLength (text ++ [c]) := by
    rw [length]
    exact Nat.le_add_right_of_le enough
  cases Mode.takes_of grows with
  | code => trivial
  | line | block =>
      obtain rfl : text = ['/'] := opened
      exact Nat.le_refl 2
  | lineComment | blockComment => exact longer 2 opened
  | escaped | backslash | string => exact longer 1 opened

-- A cut behind the first character of a comment leaves a division.
theorem cut_in_slash (held back : Text) (alone : held.reverse = ['/']) :
    cutOpen (scan (some (.slash, held)) back) 1 = false := by
  have one : Text.byteLength held.reverse = 1 := by rw [alone]; rfl
  have comment (next : Mode) (c : Char) (rest : Text) (settled : next ≠ .slash)
      (isComment : ∀ closed, (next.kind closed).isComment = true) :
      cutOpen (scan (some (next, c :: held)) rest) 1 = false := by
    obtain ⟨closed, taken, later, tokens, _⟩ := scan_first next (c :: held) rest settled
    have longer : 1 ≤ Text.byteLength ((c :: held).reverse ++ taken) := by
      rw [List.reverse_cons, Text.byteLength_append, Text.byteLength_append, one]
      omega
    rw [tokens, cutOpen_here _ _ _ longer]
    have kind := isComment closed
    cases shape : next.kind closed with
    | lineComment => rfl
    | blockComment closed => rfl
    | string quote closed => rw [shape] at kind; cases kind
    | slash => rfl
    | code => rfl
  cases back with
  | nil => exact cutOpen_here _ _ _ (Nat.le_of_eq one.symm)
  | cons c rest =>
      rw [scan, Mode.step]
      by_cases line : c = '/'
      · rw [if_pos line]
        exact comment .lineComment c rest (by simp) fun _ => rfl
      · rw [if_neg line]
        by_cases block : c = '*'
        · rw [if_pos block]
          exact comment (.blockComment false) c rest (by simp) fun _ => rfl
        · rw [if_neg block]
          exact cutOpen_here _ _ _ (Nat.le_of_eq one.symm)

-- The token goes on behind the cut; what the cut leaves of it is of its kind, and open.
theorem cut_in_progress (mode : Mode) (held back : Text) (opened : mode.Opened held.reverse) :
    (mode.kind false).isUnterminated =
      cutOpen (scan (some (mode, held)) back) (Text.byteLength held.reverse) := by
  by_cases slash : mode = .slash
  · subst slash
    have alone : held.reverse = ['/'] := opened
    rw [alone]
    exact (cut_in_slash held back alone).symm
  · obtain ⟨closed, taken, later, tokens, grown⟩ := scan_first mode held back slash
    have length := Text.byteLength_append held.reverse taken
    have unfinished (isClosed : closed = true) :
        Text.byteLength held.reverse < Text.byteLength (held.reverse ++ taken) := by
      have wide := Text.byteLength_pos taken (grown isClosed)
      omega
    rw [tokens, cutOpen_here _ _ _ (by rw [length]; exact Nat.le_add_right _ _)]
    cases mode with
    | code => rfl
    | slash => exact absurd rfl slash
    | lineComment =>
        have long : 2 ≤ Text.byteLength held.reverse := opened
        exact (decide_eq_true long).symm
    | blockComment star =>
        have long : 2 ≤ Text.byteLength held.reverse := opened
        cases closed with
        | true => simp [openAt, Mode.kind, TokenKind.isUnterminated, long, unfinished rfl]
        | false => simp [openAt, Mode.kind, TokenKind.isUnterminated, long]
    | string quote escaped =>
        have long : 1 ≤ Text.byteLength held.reverse := opened
        cases closed with
        | true => simp [openAt, Mode.kind, TokenKind.isUnterminated, long, unfinished rfl]
        | false => simp [openAt, Mode.kind, TokenKind.isUnterminated, long]

theorem close_finished (mode : Mode) (c : Char) (text : Text) (closes : mode.step c = .close) :
    (mode.kind true).isUnterminated = false ∧
      openAt ⟨mode.kind true, text⟩ (Text.byteLength text) = false := by
  cases Mode.takes_of closes with
  | blockEnd | stringEnd => simp [Mode.kind, TokenKind.isUnterminated, openAt]

def StateOpened (state : Option (Mode × Text)) : Prop :=
  ∀ mode held, state = some (mode, held) → mode.Opened held.reverse

theorem StateOpened.none : StateOpened .none := by
  intro mode held progress
  cases progress

theorem scan_ne_nil (state : Option (Mode × Text)) (text : Text) (some_char : heldText state ++ text ≠ []) :
    scan state text ≠ [] := by
  intro empty
  have whole := scan_text state text
  rw [empty] at whole
  exact some_char whole.symm

theorem cut_behind (token : Token) (tokens whole : List Token) (offset : Nat) (some_token : tokens ≠ [])
    (behind : 0 < offset) (later : unended tokens = cutOpen whole offset) :
    unended (token :: tokens) = cutOpen (token :: whole) (Text.byteLength token.text + offset) := by
  rw [unended_cons token tokens some_token, cutOpen_later token whole offset behind, later]

theorem scan_cut (front back : Text) (state : Option (Mode × Text)) (opened : StateOpened state) :
    unended (scan state front) =
      cutOpen (scan state (front ++ back))
        (Text.byteLength (heldText state) + Text.byteLength front) := by
  induction front generalizing state with
  | nil =>
      cases state with
      | none => exact (cutOpen_start _).symm
      | some progress =>
          obtain ⟨mode, held⟩ := progress
          exact cut_in_progress mode held back (opened mode held rfl)
  | cons first front ih =>
      have fresh : StateOpened (some (.start first, [first])) := by
        rintro _ _ ⟨⟩
        exact start_opened first
      have start := ih (some (.start first, [first])) fresh
      have alone : Text.byteLength (heldText (some (.start first, [first]))) = first.utf8Size :=
        Nat.add_zero _
      rw [alone] at start
      cases state with
      | none =>
          rw [scan, List.cons_append, scan, start, heldText, Text.byteLength, Text.byteLength,
            Nat.zero_add]
      | some progress =>
          obtain ⟨mode, held⟩ := progress
          have length : Text.byteLength (heldText (some (mode, held))) +
              Text.byteLength (first :: front) =
                Text.byteLength (first :: held).reverse + Text.byteLength front := by
            rw [heldText, List.reverse_cons, Text.byteLength_append, Text.byteLength, Text.byteLength,
              Text.byteLength]
            omega
          rw [List.cons_append, scan, scan]
          cases step : mode.step first with
          | extend next =>
              have grown : StateOpened (some (next, first :: held)) := by
                rintro _ _ ⟨⟩
                rw [List.reverse_cons]
                exact step_opened mode next held.reverse first (opened mode held rfl) step
              rw [length]
              exact ih (some (next, first :: held)) grown
          | close =>
              obtain ⟨ended, finished⟩ := close_finished mode first (first :: held).reverse step
              rw [length]
              by_cases last : front = []
              · subst last
                have here := cutOpen_here ⟨mode.kind true, (first :: held).reverse⟩
                  (scan none ([] ++ back)) _ (Nat.le_refl _)
                exact ended.trans (finished.symm.trans here.symm)
              · have later := ih none .none
                rw [heldText, Text.byteLength, Nat.zero_add] at later
                exact cut_behind ⟨_, _⟩ _ _ _ (scan_ne_nil none front last)
                  (Text.byteLength_pos front last) later
          | restart =>
              have behind : 0 < first.utf8Size + Text.byteLength front :=
                Nat.add_pos_left first.utf8Size_pos _
              exact cut_behind ⟨_, _⟩ _ _ _ (scan_ne_nil _ front (List.cons_ne_nil first front)) behind start

end Token

/-- The front of a text ends inside of a string or comment where the whole text has one there. -/
theorem endsInTrivia_cut (front back : Text) :
    endsInTrivia front = Token.cutOpen (tokenize (front ++ back)) (Text.byteLength front) := by
  rw [Token.unended_tokenize, tokenize, Token.scan_cut front back none .none, Token.heldText,
    Text.byteLength, Nat.zero_add]
  rfl

end ScriptSense
