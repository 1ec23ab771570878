import ScriptSense.Proofs.Blanking
import ScriptSense.Proofs.Folding
import ScriptSense.Proofs.Sanitized

/-!
A closed block hides what it contains. Its text is code on both sides of the braces, so it is
sanitized apart from its surroundings; then it folds to an empty pair, and everything read from the
folded text is the same for every content.
-/
namespace ScriptSense

theorem balanced_attachHandles (text : Text) (balanced : braces.Balanced text) :
    braces.Balanced (attachHandles text) := by
  have attached := braces.depthAfter?_marks rfl rfl 0 (attachHandles text)
  have source := braces.depthAfter?_marks rfl rfl 0 text
  rw [attachHandles_marks] at attached
  rw [Bracket.Balanced, ← attached, source]
  exact balanced

def withBlock (before inner after : Text) : Text := before ++ '{' :: (inner ++ '}' :: after)

section Block

variable (before inner after : Text) (outside : endsInTrivia before = false)
variable (code : ∀ c ∈ inner, isCode c = true)
include outside code

theorem blankTrivia_block (strings : Bool) :
    blankTrivia strings (withBlock before inner after) =
      withBlock (blankTrivia strings before) inner (Token.behindCode strings after) := by
  have blockCode : ∀ c ∈ '{' :: (inner ++ ['}']), isCode c = true := by
    intro c member
    rw [List.mem_cons, List.mem_append, List.mem_singleton] at member
    rcases member with rfl | inInner | rfl
    · decide
    · exact code c inInner
    · decide
  have kept := Token.behindCode_append strings _ after blockCode
  rw [withBlock, blankTrivia_behind strings before '{' _ rfl (by decide) outside]
  simpa [withBlock] using kept

theorem sanitize_block :
    sanitize (withBlock before inner after) =
      withBlock (sanitize before) (attachHandles inner)
        (attachHandles (Token.behindCode true after)) := by
  rw [sanitize, blankTrivia_block before inner after outside code, withBlock,
    attachHandles_apart '{' rfl (by decide) rfl, attachHandles_apart '}' rfl (by decide) rfl]
  rfl

/-- The text before a place behind the block, with the block as it is and nothing cut off of it. -/
theorem upTo_block (offset : Nat) :
    (Script.parse (withBlock before inner after)).upTo
        (Text.byteLength (withBlock before inner []) + offset) =
      withBlock (sanitize before) (attachHandles inner)
        (Text.takeBytes offset (attachHandles (Token.behindCode true after))) := by
  let front := withBlock (sanitize before) (attachHandles inner) []
  have length : Text.byteLength (withBlock before inner []) = Text.byteLength front := by
    have layout := (blankTrivia_layout (withBlock before inner [])).trans (attachHandles_layout _)
    have sanitized := sanitize_block before inner [] outside code
    rw [sanitize] at sanitized
    rw [← layout.length, sanitized]
    rfl
  have split (rest : Text) : withBlock (sanitize before) (attachHandles inner) rest = front ++ rest := by
    simp [front, withBlock]
  rw [Script.upTo, Script.parse, sanitize_block before inner after outside code, length, split, split,
    Text.takeBytes_behind]

end Block

def scopeBehind (before inner after : Text) (offset : Nat) (globals : List Declaration) : Scope :=
  Scope.ofText ((Script.parse (withBlock before inner after)).upTo
    (Text.byteLength (withBlock before inner []) + offset)) globals

/-- Two closed blocks in the same place fold alike, whatever is left of the text behind them. -/
theorem fold_block (before inner other rest : Text) (innerClosed : braces.Balanced inner)
    (otherClosed : braces.Balanced other) :
    fold braces (withBlock before (attachHandles inner) rest) =
      fold braces (withBlock before (attachHandles other) rest) := by
  have emptied (content : Text) (closed : braces.Balanced content) :=
    fold_closed braces braces_distinct before _ rest (balanced_attachHandles content closed)
  exact (emptied inner innerClosed).trans (emptied other otherClosed).symm

/-- What a closed block contains is seen neither by the outline of the script nor by any scope
behind the block. -/
theorem closed_block_opaque (before after inner other : Text) (outside : endsInTrivia before = false)
    (innerCode : ∀ c ∈ inner, isCode c = true) (otherCode : ∀ c ∈ other, isCode c = true)
    (innerClosed : braces.Balanced inner) (otherClosed : braces.Balanced other) :
    (Script.parse (withBlock before inner after)).globals =
        (Script.parse (withBlock before other after)).globals ∧
      (Script.parse (withBlock before inner after)).functions =
        (Script.parse (withBlock before other after)).functions ∧
      ∀ offset globals,
        let one := scopeBehind before inner after offset globals
        let two := scopeBehind before other after offset globals
        one.inBlock = two.inBlock ∧ one.visibleNames = two.visibleNames ∧
          ∀ name, one.typeOf? name = two.typeOf? name := by
  have same (rest : Text) := fold_block (sanitize before) inner other rest innerClosed otherClosed
  have topLevel : (Script.parse (withBlock before inner after)).topLevel =
      (Script.parse (withBlock before other after)).topLevel := by
    simp only [Script.parse, foldedText]
    rw [sanitize_block before inner after outside innerCode,
      sanitize_block before other after outside otherCode, same]
  refine ⟨?_, ?_, fun offset globals => ?_⟩
  · rw [Script.globals, Script.globals, topLevel]
  · rw [Script.functions, Script.functions, topLevel]
  · have scopes : scopeBehind before inner after offset globals =
        scopeBehind before other after offset globals := by
      simp only [scopeBehind, Scope.ofText]
      rw [upTo_block before inner after outside innerCode,
        upTo_block before other after outside otherCode, same]
    simp only [scopes, implies_true, and_self]

-- A brace in a comment opens nothing, and the string that follows the block is never closed.
theorem closed_block_opaque_handle :
    let before := "// \x7b\nvoid f(int a) ".toList
    let inner := "CBlob @ b; \x7b int c; \x7d".toList
    let after := "\nint d;\nvoid g() \x7b u8 e; s = \"\x7d".toList
    endsInTrivia before = false ∧ braces.Balanced inner ∧
      (Script.parse (withBlock before inner after)).globals =
        (Script.parse (withBlock before [] after)).globals ∧
      (scopeBehind before inner after 24 []).visibleNames =
        (scopeBehind before [] after 24 []).visibleNames ∧
      (scopeBehind before inner after 24 []).visibleNames =
        ["a".toList, "d".toList, "e".toList] := by
  intro before inner after
  have outside : endsInTrivia before = false := by decide +kernel
  have innerCode : ∀ c ∈ inner, isCode c = true := by decide
  have closed : braces.Balanced inner := by decide
  obtain ⟨globals, _, scopes⟩ :=
    closed_block_opaque before after inner [] outside innerCode (by simp) closed (by decide)
  exact ⟨outside, closed, globals, (scopes 24 []).2.1, by decide +kernel⟩

end ScriptSense
