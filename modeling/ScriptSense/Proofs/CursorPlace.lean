import ScriptSense.Proofs.Places

/-!
Positions by line and column against places by byte offset. Every place has a position that leads back
to it, a later position never leads to an earlier place, and the text in front of a position on its line
is the front of that line. Positions outside of the text stand at the end of their line or of the text.
-/
namespace ScriptSense

namespace Text

theorem splitOn_broken (rest : Text) : ('\n' :: rest).splitOn '\n' = [] :: rest.splitOn '\n' := by
  rw [List.splitOn_cons_eq_if_modifyHead, if_pos (by decide)]

theorem splitOn_flat (first : Char) (rest : Text) (flat : first ≠ '\n') :
    (first :: rest).splitOn '\n' = (rest.splitOn '\n').modifyHead (first :: ·) := by
  rw [List.splitOn_cons_eq_if_modifyHead, if_neg (by simpa using flat)]

theorem line_flat (text : Text) : ∀ line ∈ text.splitOn '\n', '\n' ∉ line := by
  induction text with
  | nil => simp
  | cons first rest ih =>
      by_cases broken : first = '\n'
      · rw [broken, splitOn_broken]
        exact List.forall_mem_cons.mpr ⟨List.not_mem_nil, ih⟩
      · rw [splitOn_flat first rest broken]
        obtain ⟨line, lines, split⟩ := List.exists_cons_of_ne_nil (List.splitOn_ne_nil '\n' rest)
        rw [split, List.forall_mem_cons] at ih
        rw [split, List.modifyHead_cons, List.forall_mem_cons, List.mem_cons, not_or]
        exact ⟨⟨Ne.symm broken, ih.1⟩, ih.2⟩

end Text

namespace Cursor

instance : LE Cursor where
  le first second :=
    first.line < second.line ∨ first.line = second.line ∧ first.column ≤ second.column

theorem le_iff (first second : Cursor) :
    first ≤ second ↔
      first.line < second.line ∨ first.line = second.line ∧ first.column ≤ second.column := Iff.rfl

instance (first second : Cursor) : Decidable (first ≤ second) :=
  decidable_of_iff _ (le_iff first second).symm

-- A line break takes one line off both positions, any other character on the first line one column, so
-- the order is kept until the earlier position is reached.
theorem reach_mono (first second : Cursor) (order : first ≤ second) (text : Text) :
    reach first.line first.column text <+: reach second.line second.column text := by
  obtain ⟨line, column⟩ := first
  obtain ⟨otherLine, otherColumn⟩ := second
  simp only [le_iff] at order ⊢
  fun_induction reach line column text generalizing otherLine otherColumn with
  | case1 line column => exact List.nil_prefix
  | case2 line column first rest ih =>
      obtain ⟨otherLine, rfl⟩ : ∃ further, otherLine = further + 1 := ⟨otherLine - 1, by omega⟩
      rw [reach, List.prefix_cons_inj]
      apply ih
      split <;> omega
  | case3 first rest => exact List.nil_prefix
  | case4 column rest => exact List.nil_prefix
  | case5 column first rest flat ih =>
      cases otherLine with
      | zero =>
          obtain ⟨otherColumn, rfl⟩ : ∃ further, otherColumn = further + 1 :=
            ⟨otherColumn - 1, by omega⟩
          rw [reach, if_neg flat, List.prefix_cons_inj]
          apply ih
          omega
      | succ otherLine =>
          rw [reach, if_neg flat, List.prefix_cons_inj]
          apply ih
          omega

theorem offset_mono (first second : Cursor) (order : first ≤ second) (text : Text) :
    first.offset text ≤ second.offset text := by
  obtain ⟨more, longer⟩ := reach_mono first second order text
  rw [offset, offset, before, before, ← longer, Text.byteLength_append]
  exact Nat.le_add_right _ _

theorem takeBytes_offset (cursor : Cursor) (text : Text) :
    Text.takeBytes (cursor.offset text) text = cursor.before text := by
  obtain ⟨rest, split⟩ := reach_prefix cursor.line cursor.column text
  have cut := Text.takeBytes_append (cursor.before text) rest
  rwa [before, split] at cut

/-- In front of a position stand the lines above it and the front of its own line. -/
theorem reach_split (line column : Nat) (text content : Text)
    (listed : (text.splitOn '\n')[line]? = some content) :
    ∃ above, reach line column text = above ++ content.take column ∧
      if line = 0 then above = [] else above.getLast? = some '\n' := by
  fun_induction reach line column text generalizing content with
  | case1 line column =>
      cases line with
      | zero =>
          obtain rfl : [] = content := by simpa using listed
          exact ⟨[], by simp, rfl⟩
      | succ line => simp at listed
  | case2 line column first rest ih =>
      by_cases broken : first = '\n'
      · subst broken
        rw [Text.splitOn_broken, List.getElem?_cons_succ] at listed
        obtain ⟨above, split, ending⟩ := ih content listed
        refine ⟨'\n' :: above, congrArg ('\n' :: ·) split, ?_⟩
        rw [if_pos rfl] at ending
        rw [if_neg (Nat.succ_ne_zero line), List.getLast?_cons]
        split at ending
        · simp [ending]
        · simp [ending]
      · rw [Text.splitOn_flat first rest broken, List.getElem?_modifyHead,
          if_neg (Nat.succ_ne_zero line)] at listed
        rw [if_neg broken] at ih ⊢
        obtain ⟨above, split, ending⟩ := ih content listed
        refine ⟨first :: above, congrArg (first :: ·) split, ?_⟩
        rw [if_neg (Nat.succ_ne_zero line)] at ending ⊢
        rw [List.getLast?_cons, ending]
        rfl
  | case3 first rest => exact ⟨[], rfl, rfl⟩
  | case4 column rest =>
      rw [Text.splitOn_broken] at listed
      obtain rfl : [] = content := by simpa using listed
      exact ⟨[], rfl, rfl⟩
  | case5 column first rest flat ih =>
      rw [Text.splitOn_flat first rest flat, List.getElem?_modifyHead, if_pos rfl] at listed
      obtain ⟨later, here, rfl⟩ := Option.map_eq_some_iff.mp listed
      obtain ⟨above, split, ending⟩ := ih later here
      obtain rfl : above = [] := by simpa using ending
      exact ⟨[], congrArg (first :: ·) split, rfl⟩

theorem lineBefore_flat (cursor : Cursor) (text : Text) : '\n' ∉ cursor.lineBefore text := by
  intro member
  exact absurd (List.mem_takeWhile_imp (List.mem_reverse.mp member)) (by decide)

/-- The text in front of a position on its line begins the text or follows a line break. -/
theorem before_lineBefore (cursor : Cursor) (text : Text) :
    ∃ above, cursor.before text = above ++ cursor.lineBefore text ∧
      (above = [] ∨ above.getLast? = some '\n') := by
  refine ⟨_, (Text.dropEndWhile_append (· != '\n') (cursor.before text)).symm, ?_⟩
  have stop := Text.stops_dropWhile (· != '\n') (cursor.before text).reverse
  rw [Text.dropEndWhile, List.getLast?_reverse, List.reverse_eq_nil_iff]
  cases shape : (cursor.before text).reverse.dropWhile (· != '\n') with
  | nil => exact .inl rfl
  | cons last others =>
      rw [shape, stops_cons] at stop
      exact .inr (by simpa using stop)

theorem lineBefore_line (cursor : Cursor) (text content : Text)
    (listed : (text.splitOn '\n')[cursor.line]? = some content) :
    cursor.lineBefore text = content.take cursor.column := by
  obtain ⟨above, split, ending⟩ := reach_split cursor.line cursor.column text content listed
  have flat := Text.line_flat text content (List.mem_of_getElem? listed)
  rw [lineBefore, before, split]
  apply Text.takeEndWhile_run
  · intro c member
    rw [bne_iff_ne]
    rintro rfl
    exact flat (List.mem_of_mem_take member)
  · intro c head
    rw [List.head?_reverse] at head
    split at ending
    · rw [ending] at head
      cases head
    · rw [ending] at head
      rw [← Option.some.inj head]
      rfl

/-- Positions and offsets agree on every text. A place is found again from its line and column; later
positions lead to later places, all of them between characters; and in front of a position on its line
stands the front of that line, up to the column or whole. -/
theorem offset_faithful (text : Text) :
    (∀ offset ∈ Text.boundaries text, (ofOffset offset text).offset text = offset) ∧
      (∀ first second : Cursor, first ≤ second → first.offset text ≤ second.offset text) ∧
      ∀ cursor : Cursor, cursor.offset text ∈ Text.boundaries text ∧
        Text.takeBytes (cursor.offset text) text = cursor.before text ∧
        '\n' ∉ cursor.lineBefore text ∧
        (∃ above, cursor.before text = above ++ cursor.lineBefore text ∧
          (above = [] ∨ above.getLast? = some '\n')) ∧
        ∀ line, (text.splitOn '\n')[cursor.line]? = some line →
          cursor.lineBefore text = line.take cursor.column ∧
            (cursor.lineBefore text).length = min cursor.column line.length := by
  refine ⟨fun offset boundary => ?_, fun first second order => offset_mono first second order text,
    fun cursor => ?_⟩
  · rw [Cursor.offset, before_ofOffset offset text boundary, Text.byteLength_takeBytes offset text boundary]
  · refine ⟨cursor.offset_boundary text, cursor.takeBytes_offset text, cursor.lineBefore_flat text,
      cursor.before_lineBefore text, fun line listed => ?_⟩
    have front := cursor.lineBefore_line text line listed
    exact ⟨front, by rw [front, List.length_take]⟩

-- A wide character in front of an empty line, and a position past the end of the last line.
theorem offset_faithful_wide :
    let text : Text := "aé\n\nü".toList
    3 ∈ Text.boundaries text ∧ (ofOffset 3 text).offset text = 3 ∧
      (⟨1, 9⟩ : Cursor) ≤ ⟨2, 7⟩ ∧ (⟨1, 9⟩ : Cursor).offset text ≤ (⟨2, 7⟩ : Cursor).offset text ∧
      (text.splitOn '\n')[2]? = some ['ü'] ∧
      ((⟨2, 7⟩ : Cursor).lineBefore text).length = min 7 1 := by
  intro text
  obtain ⟨again, order, places⟩ := offset_faithful text
  have boundary : 3 ∈ Text.boundaries text := by decide +kernel
  have later : (⟨1, 9⟩ : Cursor) ≤ ⟨2, 7⟩ := by decide
  have listed : (text.splitOn '\n')[2]? = some ['ü'] := by decide +kernel
  obtain ⟨_, _, _, _, front⟩ := places ⟨2, 7⟩
  exact ⟨boundary, again 3 boundary, later, order _ _ later, listed, (front _ listed).2⟩

end Cursor

end ScriptSense
