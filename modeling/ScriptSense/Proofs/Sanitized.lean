import ScriptSense.Proofs.Handle
import ScriptSense.Proofs.Places
import ScriptSense.Proofs.Token
import ScriptSense.Script

/-!
What sanitizing keeps of a text: its layout, and of its characters the code and the quotes around
strings. Blanking makes room byte by byte and handles are moved within a line, so each step keeps the
layout by itself.
-/
namespace ScriptSense

theorem newline_blank : isBlank '\n' = true := by decide

theorem space_narrow (count : Nat) : ∀ c ∈ Text.spaces count, c.utf8Size = 1 := by
  intro c member
  rw [List.eq_of_mem_replicate member]
  rfl

theorem newline_not_space (count : Nat) : '\n' ∉ Text.spaces count := by
  intro member
  exact absurd (List.eq_of_mem_replicate member) (by decide)

theorem blankChar_layout (c : Char) : SameLayout [c] (blankChar c) := by
  rw [blankChar]
  split
  · exact .refl [c]
  · next visible =>
      refine .narrow ?_ ?_ (newline_not_space _) (space_narrow _)
      · rw [Text.byteLength_spaces]
        rfl
      · rw [List.mem_singleton]
        rintro rfl
        exact visible newline_blank

theorem blank_layout (text : Text) : SameLayout text (blank text) := by
  have chars := SameLayout.flatMap text (fun c => [c]) blankChar fun c _ => blankChar_layout c
  rwa [List.flatMap_singleton'] at chars

theorem blank_append (front back : Text) : blank (front ++ back) = blank front ++ blank back :=
  List.flatMap_append

theorem blank_marks (text : Text) : (blank text).filter (!isBlank ·) = [] := by
  refine List.filter_eq_nil_iff.mpr fun c member => ?_
  obtain ⟨other, _, made⟩ := List.mem_flatMap.mp member
  rw [blankChar] at made
  split at made
  · next hidden =>
      rw [List.mem_singleton.mp made]
      simp [hidden]
  · rw [List.eq_of_mem_replicate made]
    decide

namespace Token

def kept (token : Token) : Text :=
  match token.kind with
  | .lineComment | .blockComment _ => []
  | .string quote closed => quote.char :: if closed then [quote.char] else []
  | .slash | .code => token.text

/-- A closed string as its quotes and what is between them. -/
theorem Delimited.closed_text {quote : Quote} {text : Text}
    (delimited : Delimited ⟨.string quote true, text⟩) :
    ∃ interior, text = quote.char :: (interior ++ [quote.char]) := by
  obtain ⟨body, shape, closes⟩ := delimited quote true rfl
  rw [Quote.closes, eq_comm, Bool.and_eq_true, beq_iff_eq] at closes
  obtain ⟨interior, rfl⟩ := List.getLast?_eq_some_iff.mp closes.1
  exact ⟨interior, shape⟩

theorem blanked_layout (token : Token) (delimited : token.Delimited) :
    SameLayout token.text (token.blanked true) := by
  obtain ⟨kind, text⟩ := token
  cases kind with
  | lineComment => exact blank_layout text
  | blockComment closed => exact blank_layout text
  | slash => exact .refl text
  | code => exact .refl text
  | string quote closed =>
      cases closed with
      | true =>
          obtain ⟨interior, rfl⟩ := delimited.closed_text
          have inside := (blank_layout interior).append (.refl [quote.char])
          simpa [blanked, blankInterior] using (SameLayout.refl [quote.char]).append inside
      | false =>
          obtain ⟨body, shape, _⟩ := delimited quote false rfl
          subst shape
          exact (SameLayout.refl [quote.char]).append (blank_layout body)

theorem blanked_marks (token : Token) (delimited : token.Delimited) :
    (token.blanked true).filter (!isBlank ·) = token.kept.filter (!isBlank ·) := by
  obtain ⟨kind, text⟩ := token
  cases kind with
  | lineComment => exact blank_marks text
  | blockComment closed => exact blank_marks text
  | slash => rfl
  | code => rfl
  | string quote closed =>
      cases closed with
      | true =>
          obtain ⟨interior, rfl⟩ := delimited.closed_text
          simp [blanked, blankInterior, kept, List.filter_cons, blank_marks]
      | false =>
          obtain ⟨body, shape, _⟩ := delimited quote false rfl
          subst shape
          simp [blanked, blankInterior, kept, List.filter_cons, blank_marks]

end Token

theorem blankTrivia_layout (text : Text) : SameLayout text (blankTrivia true text) := by
  have tokens := SameLayout.flatMap (tokenize text) (·.text) (Token.blanked true) fun token member =>
    token.blanked_layout (Token.tokenize_delimited text token member)
  rwa [Token.tokenize_text] at tokens

theorem blankTrivia_marks (text : Text) :
    (blankTrivia true text).filter (!isBlank ·) =
      ((tokenize text).flatMap Token.kept).filter (!isBlank ·) := by
  rw [blankTrivia, List.filter_flatMap, List.filter_flatMap]
  exact List.flatMap_congr fun token member =>
    token.blanked_marks (Token.tokenize_delimited text token member)

theorem newline_not_inline (text : Text) : '\n' ∉ text.takeWhile isInlineBlank := by
  intro member
  exact absurd (List.mem_takeWhile_imp member) (by decide)

theorem pullHandle_detached (text rest : Text) (gap : text.takeWhile isInlineBlank ≠ [])
    (marked : text.dropWhile isInlineBlank = '@' :: rest) :
    pullHandle text =
      '@' :: (Text.spaces (Text.byteLength (text.takeWhile isInlineBlank) +
        Text.byteLength (rest.takeWhile isInlineBlank)) ++ rest.dropWhile isInlineBlank) := by
  obtain ⟨first, blanks, shape⟩ := List.exists_cons_of_ne_nil gap
  simp only [pullHandle, List.span_eq_takeWhile_dropWhile, marked, shape]

theorem pullHandle_kept (text : Text) (attached : text.takeWhile isInlineBlank = [] ∨
      (text.dropWhile isInlineBlank).head? ≠ some '@') : pullHandle text = text := by
  simp only [pullHandle, List.span_eq_takeWhile_dropWhile]
  split
  · next gap marked =>
      rw [gap, marked] at attached
      simp at attached
  · rfl

theorem moved_layout (gap padding : Text) (gapFlat : '\n' ∉ gap) (paddingFlat : '\n' ∉ padding) :
    SameLayout (gap ++ '@' :: padding)
      ('@' :: Text.spaces (Text.byteLength gap + Text.byteLength padding)) := by
  have sign : '@'.utf8Size = 1 := rfl
  refine .narrow ?_ ?_ ?_ ?_
  · rw [Text.byteLength_append, Text.byteLength, Text.byteLength, Text.byteLength_spaces]
    omega
  · simp [gapFlat, paddingFlat]
  · simp [newline_not_space]
  · exact List.forall_mem_cons.mpr ⟨sign, space_narrow _⟩

theorem pullHandle_layout (text : Text) : SameLayout text (pullHandle text) := by
  by_cases detached : text.takeWhile isInlineBlank ≠ [] ∧
      (text.dropWhile isInlineBlank).head? = some '@'
  · obtain ⟨rest, marked⟩ := List.head?_eq_some_iff.mp detached.2
    have moved := moved_layout (text.takeWhile isInlineBlank) (rest.takeWhile isInlineBlank)
      (newline_not_inline text) (newline_not_inline rest)
    have split : text = (text.takeWhile isInlineBlank ++ '@' :: rest.takeWhile isInlineBlank) ++
        rest.dropWhile isInlineBlank := by
      rw [List.append_assoc, List.cons_append, List.takeWhile_append_dropWhile, ← marked,
        List.takeWhile_append_dropWhile]
    rw [pullHandle_detached text rest detached.1 marked]
    have whole := moved.append (.refl (rest.dropWhile isInlineBlank))
    rwa [← split] at whole
  · rw [pullHandle_kept text (by tauto)]
    exact .refl text

theorem attachHandles_layout (text : Text) : SameLayout text (attachHandles text) := by
  induction text with
  | nil => exact .refl []
  | cons first rest ih =>
      rw [attachHandles]
      split
      · exact (SameLayout.refl [first]).append (ih.trans (pullHandle_layout _))
      · exact (SameLayout.refl [first]).append ih

/-- Sanitizing moves no line and no boundary, so the text before a cursor ends where the cursor is. It
keeps all code, and the quotes that the strings begin and end with; nothing else that it keeps can be
seen. -/
theorem sanitize_layout (text : Text) :
    SameLayout text (sanitize text) ∧
      (∀ cursor : Cursor, Text.byteLength ((Script.parse text).upTo (cursor.offset text)) =
        cursor.offset text) ∧
      (∀ token ∈ tokenize text, token.Delimited) ∧
      (sanitize text).filter (!isBlank ·) =
        ((tokenize text).flatMap Token.kept).filter (!isBlank ·) := by
  have layout := (blankTrivia_layout text).trans (attachHandles_layout _)
  refine ⟨layout, fun cursor => ?_, Token.tokenize_delimited text, ?_⟩
  · exact Text.byteLength_takeBytes _ _ (layout.boundaries (cursor.offset_boundary text))
  · rw [sanitize, attachHandles_marks, blankTrivia_marks]

end ScriptSense
