import ScriptSense.Answer
import ScriptSense.Proofs.CompletionSite

/-!
Where nothing is offered. The text in front of a place ends inside of a string or comment exactly if a
string or comment of the whole text encloses the place, so what is behind the place does not matter to
completions and help, and what is in front of it is read as it is in the whole.
-/
namespace ScriptSense

namespace Token

/-- A string or comment that begins at `start` encloses an offset: its opening is behind the offset, and
its end is not, unless it has none. -/
def Encloses (start : Nat) (token : Token) (offset : Nat) : Prop :=
  let stop := start + Text.byteLength token.text
  match token.kind with
  | .string _ closed => start < offset ∧ (offset < stop ∨ offset = stop ∧ closed = false)
  | .blockComment closed => start + 2 ≤ offset ∧ (offset < stop ∨ offset = stop ∧ closed = false)
  | .lineComment => start + 2 ≤ offset ∧ offset ≤ stop
  | .slash | .code => False

theorem Encloses.within {start offset : Nat} {token : Token} (encloses : token.Encloses start offset) :
    start < offset ∧ offset ≤ start + Text.byteLength token.text := by
  obtain ⟨kind, text⟩ := token
  cases kind with
  | lineComment =>
      obtain ⟨opening, stop⟩ := encloses
      exact ⟨by omega, stop⟩
  | blockComment closed =>
      obtain ⟨opening, stop⟩ := encloses
      exact ⟨by omega, by omega⟩
  | string quote closed =>
      obtain ⟨opening, stop⟩ := encloses
      exact ⟨opening, by omega⟩
  | slash => exact encloses.elim
  | code => exact encloses.elim

/-- A cut within a token leaves it open, unless it is closed and the cut is at its end. -/
theorem goes_on (start length offset : Nat) (closed : Bool) (within : offset ≤ length) :
    (decide (offset < length) || !closed) = true ↔
      start + offset < start + length ∨ start + offset = start + length ∧ closed = false := by
  cases closed with
  | true => simp
  | false => simpa using Nat.lt_or_eq_of_le within

theorem openAt_encloses (token : Token) (start offset : Nat)
    (within : offset ≤ Text.byteLength token.text) :
    token.openAt offset = true ↔ token.Encloses start (start + offset) := by
  obtain ⟨kind, text⟩ := token
  cases kind with
  | lineComment =>
      have stop : start + offset ≤ start + Text.byteLength text := Nat.add_le_add_left within start
      simp only [openAt, Encloses, decide_eq_true_eq, stop, and_true]
      omega
  | blockComment closed =>
      rw [openAt, Bool.and_eq_true, decide_eq_true_eq, goes_on start _ offset closed within, Encloses]
      exact and_congr_left' (by omega)
  | string quote closed =>
      rw [openAt, Bool.and_eq_true, decide_eq_true_eq, goes_on start _ offset closed within, Encloses]
      exact and_congr_left' (by omega)
  | slash => exact iff_of_false Bool.false_ne_true id
  | code => exact iff_of_false Bool.false_ne_true id

theorem placed_behind (start : Nat) (tokens : List Token) :
    ∀ entry ∈ placed start tokens, start ≤ entry.1 := by
  induction tokens generalizing start with
  | nil => exact nofun
  | cons token rest ih =>
      intro entry member
      rcases List.mem_cons.mp member with rfl | later
      · exact Nat.le_refl start
      · exact (Nat.le_add_right _ _).trans (ih _ entry later)

/-- A cut leaves a string or comment open exactly if one of the tokens encloses it. -/
theorem cutOpen_encloses (tokens : List Token) (start offset : Nat) :
    cutOpen tokens offset = true ↔
      ∃ entry ∈ placed start tokens, entry.2.Encloses entry.1 (start + offset) := by
  induction tokens generalizing start offset with
  | nil => exact iff_of_false Bool.false_ne_true (by rintro ⟨_, member, _⟩; cases member)
  | cons token rest ih =>
      rw [placed, List.exists_mem_cons_iff, cutOpen]
      by_cases within : offset ≤ Text.byteLength token.text
      · have apart : ¬∃ entry ∈ placed (start + Text.byteLength token.text) rest,
            entry.2.Encloses entry.1 (start + offset) := by
          rintro ⟨entry, member, encloses⟩
          have behind := placed_behind _ rest entry member
          have begins := encloses.within.1
          omega
        rw [if_pos within, openAt_encloses token start offset within, or_iff_left apart]
      · have apart : ¬token.Encloses start (start + offset) := fun encloses => by
          have ends := encloses.within.2
          omega
        have place : start + offset =
            start + Text.byteLength token.text + (offset - Text.byteLength token.text) := by omega
        rw [if_neg within, or_iff_right apart, place]
        exact ih _ _

end Token

def Enclosed (text : Text) (offset : Nat) : Prop :=
  ∃ entry ∈ placed 0 (tokenize text), entry.2.Encloses entry.1 offset

theorem endsInTrivia_enclosed (front back : Text) :
    endsInTrivia front = true ↔ Enclosed (front ++ back) (Text.byteLength front) := by
  rw [endsInTrivia_cut front back, Token.cutOpen_encloses _ 0, Nat.zero_add]
  rfl

namespace OpenScript

def helped? (knowledge : Knowledge) (opened : OpenScript) (offset : Nat) : Option Help := do
  let call ← OpenCall.ofText? (opened.script.upTo offset)
  let callable ← (opened.resolverAt knowledge offset).callable? call.chain
  if callable.signatures.isEmpty then none else some (Help.ofCallable callable call.active)

theorem completions_site (knowledge : Knowledge) (opened : OpenScript) (cursor : Cursor) :
    opened.completions knowledge cursor =
      if endsInTrivia (cursor.before opened.text) then []
      else opened.offered knowledge (cursor.offset opened.text)
        (CompletionSite.ofLine (cursor.lineBefore opened.text)) := by
  rw [completions]
  cases CompletionSite.ofLine (cursor.lineBefore opened.text) <;> rfl

/-- The front of a text ends inside of a string or comment exactly if one of the whole text encloses the
cut, and there, and nowhere else, completions and help are suppressed. -/
theorem suppressed_inside (text : Text) (offset : Nat) (boundary : offset ∈ Text.boundaries text) :
    (endsInTrivia (Text.takeBytes offset text) = true ↔ Enclosed text offset) ∧
    ∀ (knowledge : Knowledge) (opened : OpenScript) (cursor : Cursor), opened.text = text →
      cursor.offset text = offset →
      (Enclosed text offset →
        opened.completions knowledge cursor = [] ∧ opened.help? knowledge cursor = none) ∧
      (¬Enclosed text offset →
        opened.completions knowledge cursor =
            opened.offered knowledge offset (CompletionSite.ofLine (cursor.lineBefore text)) ∧
          opened.help? knowledge cursor = opened.helped? knowledge offset) := by
  constructor
  · obtain ⟨front, back, rfl, rfl⟩ := (Text.mem_boundaries offset text).mp boundary
    rw [Text.takeBytes_append]
    exact endsInTrivia_enclosed front back
  · rintro knowledge opened cursor rfl rfl
    obtain ⟨back, whole⟩ := Cursor.reach_prefix cursor.line cursor.column opened.text
    have decided := endsInTrivia_enclosed (cursor.before opened.text) back
    rw [Cursor.before, whole, ← Cursor.before, ← Cursor.offset] at decided
    rw [← decided, completions_site, help?]
    constructor
    · intro inside
      rw [if_pos inside, if_pos inside]
      exact ⟨rfl, rfl⟩
    · intro outside
      rw [if_neg outside, if_neg outside]
      exact ⟨rfl, rfl⟩

-- Behind the comment mark in the literal and in front of its end, which the front does not have yet.
theorem suppressed_inside_literal :
    let text := "f(\"é // \", x); /* g(".toList
    8 ∈ Text.boundaries text ∧ Enclosed text 8 ∧ endsInTrivia (Text.takeBytes 8 text) = true ∧
      (ofText text).completions Knowledge.empty ⟨0, 7⟩ = [] ∧
      (ofText text).help? Knowledge.empty ⟨0, 7⟩ = none := by
  intro text
  have boundary : 8 ∈ Text.boundaries text := by decide +kernel
  have inside : endsInTrivia (Text.takeBytes 8 text) = true := by decide +kernel
  obtain ⟨decided, suppressed⟩ := suppressed_inside text 8 boundary
  have enclosed : Enclosed text 8 := decided.mp inside
  exact ⟨boundary, enclosed, inside,
    (suppressed Knowledge.empty (ofText text) ⟨0, 7⟩ rfl (by decide +kernel)).1 enclosed⟩

end OpenScript

end ScriptSense
