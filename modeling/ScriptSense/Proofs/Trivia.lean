import Mathlib.Data.List.Forall2
import ScriptSense.Answer
import ScriptSense.Proofs.Inside

/-!
Signature help does not read comments and strings. Two texts whose tokens differ at most in the
visible characters of comments and strings are blanked to one text, and a place is inside of a
comment or string in both or in neither. Help is computed from these alone.
-/
namespace ScriptSense

namespace Text

def blanksFrom : Nat → Text → List (Nat × Char)
  | _, [] => []
  | offset, first :: rest =>
      let later := blanksFrom (offset + first.utf8Size) rest
      if isBlank first then (offset, first) :: later else later

def drawn : Nat → Nat → List (Nat × Char) → Text
  | start, stop, [] => spaces (stop - start)
  | start, stop, (offset, c) :: later =>
      spaces (offset - start) ++ c :: drawn (offset + c.utf8Size) stop later

theorem blanksFrom_behind (offset : Nat) (text : Text) :
    ∀ entry ∈ blanksFrom offset text, offset ≤ entry.1 := by
  induction text generalizing offset with
  | nil => simp [blanksFrom]
  | cons first rest ih =>
      have later : ∀ entry ∈ blanksFrom (offset + first.utf8Size) rest, offset ≤ entry.1 :=
        fun entry member => Nat.le_of_add_right_le (ih _ entry member)
      rw [blanksFrom]
      split
      · exact List.forall_mem_cons.mpr ⟨Nat.le_refl _, later⟩
      · exact later

theorem drawn_spaces (start width stop : Nat) (entries : List (Nat × Char))
    (room : start + width ≤ stop) (behind : ∀ entry ∈ entries, start + width ≤ entry.1) :
    drawn start stop entries = spaces width ++ drawn (start + width) stop entries := by
  have joined (place : Nat) (further : start + width ≤ place) :
      spaces (place - start) = spaces width ++ spaces (place - (start + width)) := by
    rw [spaces, spaces, spaces, ← List.replicate_add]
    congr 1
    omega
  cases entries with
  | nil => exact joined stop room
  | cons entry later =>
      obtain ⟨offset, c⟩ := entry
      rw [drawn, drawn, joined offset (behind _ List.mem_cons_self), List.append_assoc]

end Text

/-- A blanked text is drawn from its blanks and its length. -/
theorem blank_drawn (offset : Nat) (text : Text) :
    blank text =
      Text.drawn offset (offset + Text.byteLength text) (Text.blanksFrom offset text) := by
  induction text generalizing offset with
  | nil => simp [blank, Text.blanksFrom, Text.drawn, Text.byteLength, Text.spaces]
  | cons first rest ih =>
      have later := ih (offset + first.utf8Size)
      rw [Nat.add_assoc] at later
      rw [blank, List.flatMap_cons, ← blank, later, blankChar, Text.blanksFrom, Text.byteLength]
      by_cases hidden : isBlank first = true
      · rw [if_pos hidden, if_pos hidden, Text.drawn, Nat.sub_self]
        rfl
      · rw [if_neg hidden, if_neg hidden]
        refine (Text.drawn_spaces _ _ _ _ ?_ (Text.blanksFrom_behind _ rest)).symm
        omega

namespace Token

/-- Two tokens in their places that differ at most in the visible characters of a comment or of a
string. -/
structure Counterparts (one two : Nat × Token) : Prop where
  offset : one.1 = two.1
  kind : one.2.kind = two.2.kind
  length : Text.byteLength one.2.text = Text.byteLength two.2.text
  code : one.2.kind = .code ∨ one.2.kind = .slash → one.2.text = two.2.text
  blanks : one.2.kind.isComment = true ∨ one.2.kind.isString = true →
    Text.blanksFrom one.1 one.2.text = Text.blanksFrom two.1 two.2.text

instance (one two : Nat × Token) : Decidable (Counterparts one two) :=
  decidable_of_iff
    (one.1 = two.1 ∧ one.2.kind = two.2.kind ∧
      Text.byteLength one.2.text = Text.byteLength two.2.text ∧
      (one.2.kind = .code ∨ one.2.kind = .slash → one.2.text = two.2.text) ∧
      (one.2.kind.isComment = true ∨ one.2.kind.isString = true →
        Text.blanksFrom one.1 one.2.text = Text.blanksFrom two.1 two.2.text))
    ⟨fun ⟨offset, kind, length, code, blanks⟩ => ⟨offset, kind, length, code, blanks⟩,
      fun ⟨offset, kind, length, code, blanks⟩ => ⟨offset, kind, length, code, blanks⟩⟩

def requoted (quote : Quote) (closed : Bool) (blanked : Text) : Text :=
  quote.char :: if closed then blanked.tail.dropLast ++ [quote.char] else blanked.tail

theorem blanked_requoted (quote : Quote) (closed : Bool) (text : Text)
    (delimited : Delimited ⟨.string quote closed, text⟩) :
    blanked true ⟨.string quote closed, text⟩ = requoted quote closed (blank text) := by
  have width : blank [quote.char] = [' '] := by cases quote <;> decide
  have behind (body : Text) : (blank (quote.char :: body)).tail = blank body := by
    have split := blank_append [quote.char] body
    rw [width] at split
    exact congrArg List.tail split
  cases closed with
  | true =>
      obtain ⟨interior, rfl⟩ := delimited.closed_text
      simp [blanked, blankInterior, requoted, behind, blank_append, width]
  | false =>
      obtain ⟨body, shape, _⟩ := delimited quote false rfl
      subst shape
      simp [blanked, blankInterior, requoted, behind]

theorem Counterparts.blanked {one two : Nat × Token} (alike : Counterparts one two)
    (delimitedOne : one.2.Delimited) (delimitedTwo : two.2.Delimited) :
    one.2.blanked true = two.2.blanked true := by
  obtain ⟨offset, kind, text⟩ := one
  obtain ⟨otherOffset, otherKind, otherText⟩ := two
  obtain ⟨sameOffset, sameKind, length, code, blanks⟩ := alike
  dsimp only at sameOffset sameKind length code blanks
  subst sameOffset sameKind
  have drawn (trivia : kind.isComment = true ∨ kind.isString = true) :
      blank text = blank otherText := by
    rw [blank_drawn offset text, blank_drawn offset otherText, length, blanks trivia]
  cases kind with
  | lineComment => exact drawn (.inl rfl)
  | blockComment closed => exact drawn (.inl rfl)
  | string quote closed =>
      rw [blanked_requoted quote closed text delimitedOne,
        blanked_requoted quote closed otherText delimitedTwo, drawn (.inr rfl)]
  | slash => exact code (.inr rfl)
  | code => exact code (.inl rfl)

theorem Counterparts.openAt {one two : Nat × Token} (alike : Counterparts one two) (offset : Nat) :
    one.2.openAt offset = two.2.openAt offset := by
  rw [Token.openAt, Token.openAt, alike.kind, alike.length]

theorem counterparts_blanked (tokens others : List Token) (start other : Nat)
    (alike : List.Forall₂ Counterparts (placed start tokens) (placed other others))
    (delimited : ∀ token ∈ tokens, token.Delimited)
    (delimitedOthers : ∀ token ∈ others, token.Delimited) :
    tokens.flatMap (blanked true) = others.flatMap (blanked true) := by
  induction tokens generalizing others start other with
  | nil =>
      cases others with
      | nil => rfl
      | cons token rest => cases alike
  | cons token tokens ih =>
      cases others with
      | nil => cases alike
      | cons counterpart others =>
          rw [List.forall_mem_cons] at delimited delimitedOthers
          rw [placed, placed, List.forall₂_cons] at alike
          rw [List.flatMap_cons, List.flatMap_cons, alike.1.blanked delimited.1 delimitedOthers.1,
            ih others _ _ alike.2 delimited.2 delimitedOthers.2]

theorem counterparts_cutOpen (tokens others : List Token) (start other : Nat)
    (alike : List.Forall₂ Counterparts (placed start tokens) (placed other others)) (offset : Nat) :
    cutOpen tokens offset = cutOpen others offset := by
  induction tokens generalizing others start other offset with
  | nil =>
      cases others with
      | nil => rfl
      | cons token rest => cases alike
  | cons token tokens ih =>
      cases others with
      | nil => cases alike
      | cons counterpart others =>
          rw [placed, placed, List.forall₂_cons] at alike
          have length := alike.1.length
          dsimp only at length
          rw [cutOpen, cutOpen, ← length, alike.1.openAt offset]
          split
          · rfl
          · exact ih others _ _ alike.2 _

end Token

def SameButTrivia (one two : Text) : Prop :=
  List.Forall₂ Token.Counterparts (placed 0 (tokenize one)) (placed 0 (tokenize two))

namespace SameButTrivia

variable {one two : Text} (alike : SameButTrivia one two)
include alike

theorem sanitized : sanitize one = sanitize two := by
  rw [sanitize, sanitize, blankTrivia, blankTrivia]
  exact congrArg attachHandles (Token.counterparts_blanked _ _ 0 0 alike
    (Token.tokenize_delimited one) (Token.tokenize_delimited two))

theorem endsInTrivia (offset : Nat) (boundaryOne : offset ∈ Text.boundaries one)
    (boundaryTwo : offset ∈ Text.boundaries two) :
    endsInTrivia (Text.takeBytes offset one) = endsInTrivia (Text.takeBytes offset two) := by
  have cut := Token.counterparts_cutOpen _ _ 0 0 alike offset
  obtain ⟨front, back, rfl, rfl⟩ := (Text.mem_boundaries offset one).mp boundaryOne
  obtain ⟨otherFront, otherBack, rfl, length⟩ := (Text.mem_boundaries _ two).mp boundaryTwo
  rw [Text.takeBytes_append, endsInTrivia_cut front back, cut, length, Text.takeBytes_append,
    endsInTrivia_cut otherFront otherBack]

/-- Both texts offer the same variables and functions; only the paths they include may differ. -/
theorem outline :
    (Script.parse one).globals = (Script.parse two).globals ∧
      (Script.parse one).functions = (Script.parse two).functions := by
  have topLevel : (Script.parse one).topLevel = (Script.parse two).topLevel := by
    simp only [Script.parse, alike.sanitized]
  constructor
  · rw [Script.globals, Script.globals, topLevel]
  · rw [Script.functions, Script.functions, topLevel]

theorem upTo (offset : Nat) : (Script.parse one).upTo offset = (Script.parse two).upTo offset := by
  simp only [Script.upTo, Script.parse, alike.sanitized]

end SameButTrivia

def OpenScript.including (text : Text) (included : List Script) : OpenScript :=
  { OpenScript.ofText text with included := included }

theorem SameButTrivia.resolver {one two : Text} (alike : SameButTrivia one two)
    (knowledge : Knowledge) (included : List Script) (offset : Nat) :
    (OpenScript.including one included).resolverAt knowledge offset =
      (OpenScript.including two included).resolverAt knowledge offset := by
  obtain ⟨globals, functions⟩ := alike.outline
  have overlay : (OpenScript.including one included).overlay knowledge.functions =
      (OpenScript.including two included).overlay knowledge.functions := by
    simp only [OpenScript.including, OpenScript.overlay, OpenScript.scripts, OpenScript.ofText,
      Overlay.ofScripts, List.foldl_cons, Overlay.addScript, functions]
  have scope : (OpenScript.including one included).scopeAt offset =
      (OpenScript.including two included).scopeAt offset := by
    simp only [OpenScript.including, OpenScript.scopeAt, OpenScript.globals, OpenScript.scripts,
      OpenScript.ofText, List.flatMap_cons, globals, alike.upTo]
  rw [OpenScript.resolverAt, OpenScript.resolverAt, overlay, scope]

/-- What comments and strings say has no influence on signature help at any place. -/
theorem help_ignores_trivia (knowledge : Knowledge) (included : List Script) (one two : Text)
    (alike : SameButTrivia one two) (offset : Nat) (boundaryOne : offset ∈ Text.boundaries one)
    (boundaryTwo : offset ∈ Text.boundaries two) :
    (OpenScript.including one included).help? knowledge (Cursor.ofOffset offset one) =
      (OpenScript.including two included).help? knowledge (Cursor.ofOffset offset two) := by
  have beforeOne := Cursor.before_ofOffset offset one boundaryOne
  have beforeTwo := Cursor.before_ofOffset offset two boundaryTwo
  have offsetOne : (Cursor.ofOffset offset one).offset one = offset := by
    rw [Cursor.offset, beforeOne, Text.byteLength_takeBytes offset one boundaryOne]
  have offsetTwo : (Cursor.ofOffset offset two).offset two = offset := by
    rw [Cursor.offset, beforeTwo, Text.byteLength_takeBytes offset two boundaryTwo]
  have textOne : (OpenScript.including one included).text = one := rfl
  have textTwo : (OpenScript.including two included).text = two := rfl
  have scriptOne : (OpenScript.including one included).script = Script.parse one := rfl
  have scriptTwo : (OpenScript.including two included).script = Script.parse two := rfl
  simp only [OpenScript.help?, textOne, textTwo, scriptOne, scriptTwo, beforeOne, beforeTwo, offsetOne,
    offsetTwo, alike.endsInTrivia offset boundaryOne boundaryTwo, alike.upTo,
    alike.resolver knowledge included]

-- The comma and the parenthesis in the string and the comment are no part of the call, and a wide
-- character moves the column of the place but not its offset.
theorem help_ignores_trivia_wide :
    let knowledge := Knowledge.empty.addFunction none "void".toList "print".toList
      (Signature.parse "string text, int times".toList)
    let one := "print(\"é,)\", /* ( */ ".toList
    let two := "print(\"text\", /* . */ ".toList
    SameButTrivia one two ∧ Cursor.ofOffset 21 one ≠ Cursor.ofOffset 21 two ∧
      (OpenScript.including one []).help? knowledge (Cursor.ofOffset 21 one) =
        (OpenScript.including two []).help? knowledge (Cursor.ofOffset 21 two) ∧
      ((OpenScript.including one []).help? knowledge (Cursor.ofOffset 21 one)).map
        (·.activeParameter) = some 1 := by
  intro knowledge one two
  let tokens (word : Text) (mark : Char) : List (Nat × Token) :=
    [(0, ⟨.code, "print(".toList⟩), (6, ⟨.string .double true, '"' :: (word ++ ['"'])⟩),
      (12, ⟨.code, ", ".toList⟩), (14, ⟨.blockComment true, "/* ".toList ++ mark :: " */".toList⟩),
      (21, ⟨.code, " ".toList⟩)]
  have tokensOne : placed 0 (tokenize one) = tokens "é,)".toList '(' := by decide +kernel
  have tokensTwo : placed 0 (tokenize two) = tokens "text".toList '.' := by decide +kernel
  have alike : SameButTrivia one two := by
    rw [SameButTrivia, tokensOne, tokensTwo]
    exact .cons (by decide) (.cons (by decide +kernel) (.cons (by decide) (.cons (by decide +kernel)
      (.cons (by decide) .nil))))
  have same := help_ignores_trivia knowledge [] one two alike 21 (by decide +kernel)
    (by decide +kernel)
  exact ⟨alike, by decide +kernel, same, by decide +kernel⟩

end ScriptSense
