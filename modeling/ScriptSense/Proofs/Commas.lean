import ScriptSense.Proofs.ParameterList

/-!
Lists of pieces that are joined by commas. A list splits into the pieces that it was joined from if
none of them has a comma at depth zero and each one but the last closes what it opens. The commas and
brackets of the pieces decide that, so other characters may be exchanged.
-/
namespace ScriptSense

def splitsLists (c : Char) : Bool := c ∈ [',', '(', '[', '{', '<', ')', ']', '}', '>']

def listMarks (text : Text) : Text := text.filter splitsLists

theorem listMarks_append (front back : Text) :
    listMarks (front ++ back) = listMarks front ++ listMarks back := List.filter_append front back

theorem listMarks_free (text : Text) (free : ∀ c ∈ text, splitsLists c = false) :
    listMarks text = [] := by
  refine List.filter_eq_nil_iff.mpr fun c member => ?_
  rw [free c member]
  exact Bool.false_ne_true

theorem blank_no_split (c : Char) (blank : isBlank c = true) : splitsLists c = false := by
  cases splits : splitsLists c with
  | false => rfl
  | true =>
      have visible : ∀ c ∈ [',', '(', '[', '{', '<', ')', ']', '}', '>'], isBlank c = false := by
        decide
      rw [visible c (by simpa [splitsLists] using splits)] at blank
      cases blank

/-- The marks of a text are among what is left of it without blanks. -/
theorem listMarks_visible (text : Text) : listMarks (text.filter (!isBlank ·)) = listMarks text := by
  rw [listMarks, listMarks, List.filter_filter]
  refine List.filter_congr fun c _ => ?_
  cases blank : isBlank c with
  | false => simp
  | true => simp [blank_no_split c blank]

theorem listMarks_gap (gap : Gap) : listMarks gap.text = [] :=
  listMarks_free gap.text fun c member => blank_no_split c (gap.blank c member)

theorem listMarks_trim (text : Text) : listMarks (Text.trim text) = listMarks text := by
  obtain ⟨lead, trail, split⟩ := Text.trim_split text
  conv_rhs => rw [split]
  simp [listMarks_append, listMarks_gap]

theorem listMarks_attachHandles (text : Text) : listMarks (attachHandles text) = listMarks text := by
  rw [← listMarks_visible, attachHandles_marks, listMarks_visible]

def depthOf (depth : Nat) (text : Text) : Nat := text.foldl depthAfter depth

theorem depthAfter_other (depth : Nat) (c : Char) (other : splitsLists c = false) :
    depthAfter depth c = depth := by
  simp only [splitsLists, List.mem_cons, List.not_mem_nil, or_false, decide_eq_false_iff_not,
    not_or] at other
  simp [depthAfter, other]

def Unsplit : Nat → Text → Prop
  | _, [] => True
  | depth, first :: rest => ¬(first = ',' ∧ depth = 0) ∧ Unsplit (depthAfter depth first) rest

theorem unsplit_marks (depth : Nat) (text : Text) :
    (Unsplit depth text ↔ Unsplit depth (listMarks text)) ∧
      depthOf depth text = depthOf depth (listMarks text) := by
  induction text generalizing depth with
  | nil => exact ⟨.rfl, rfl⟩
  | cons first rest ih =>
      cases mark : splitsLists first with
      | true =>
          have kept : listMarks (first :: rest) = first :: listMarks rest :=
            List.filter_cons_of_pos mark
          rw [kept, Unsplit, Unsplit, (ih _).1]
          exact ⟨.rfl, (ih _).2⟩
      | false =>
          have dropped : listMarks (first :: rest) = listMarks rest :=
            List.filter_cons_of_neg (by simp [mark])
          have notComma : first ≠ ',' := by
            rintro rfl
            exact absurd mark (by decide)
          have same := depthAfter_other depth first mark
          rw [dropped, Unsplit, same]
          refine ⟨by simp [notComma, (ih depth).1], ?_⟩
          have later := (ih depth).2
          rw [← later, depthOf, List.foldl_cons, same]
          rfl

/-- Pieces of one list: a comma behind the first of them is at depth zero, and so for the others. -/
def Pieces : Nat → List Text → Prop
  | _, [] => True
  | depth, piece :: rest =>
      Unsplit depth piece ∧ (rest ≠ [] → depthOf depth piece = 0) ∧ Pieces 0 rest

theorem splitCommas_pieces (depth : Nat) (text : Text) : Pieces depth (splitCommas depth text) := by
  induction text generalizing depth with
  | nil => exact ⟨trivial, fun more => absurd rfl more, trivial⟩
  | cons first rest ih =>
      rw [splitCommas]
      split
      · next comma =>
          have later := ih 0
          exact ⟨trivial, fun _ => comma.2, later⟩
      · next inside =>
          have later := ih (depthAfter depth first)
          split
          · exact ⟨⟨inside, trivial⟩, fun more => absurd rfl more, trivial⟩
          · next piece pieces shape =>
              rw [shape] at later
              exact ⟨⟨inside, later.1⟩, later.2.1, later.2.2⟩

/-- A text that is not split goes into the first piece of what follows it. -/
theorem splitCommas_append (depth : Nat) (front rest piece : Text) (pieces : List Text)
    (whole : Unsplit depth front)
    (split : splitCommas (depthOf depth front) rest = piece :: pieces) :
    splitCommas depth (front ++ rest) = (front ++ piece) :: pieces := by
  induction front generalizing depth with
  | nil => exact split
  | cons first front ih =>
      have later := ih (depthAfter depth first) whole.2 split
      rw [List.cons_append, splitCommas, if_neg whole.1, later, List.cons_append]

/-- Joining pieces is undone by splitting. -/
theorem splitCommas_intercalate (depth : Nat) (piece : Text) (pieces : List Text)
    (joined : Pieces depth (piece :: pieces)) :
    splitCommas depth ([','].intercalate (piece :: pieces)) = piece :: pieces := by
  induction pieces generalizing depth piece with
  | nil =>
      have alone := splitCommas_append depth piece [] [] [] joined.1 rfl
      rw [List.append_nil] at alone
      rw [List.intercalate_singleton]
      exact alone
  | cons next pieces ih =>
      have closed := joined.2.1 (List.cons_ne_nil _ _)
      have later : splitCommas 0 (',' :: [','].intercalate (next :: pieces)) =
          [] :: next :: pieces := by
        rw [splitCommas, if_pos ⟨rfl, rfl⟩, ih 0 next joined.2.2]
      rw [← closed] at later
      have split := splitCommas_append depth piece _ [] (next :: pieces) joined.1 later
      rwa [List.append_nil] at split

theorem pieces_marks (depth : Nat) (pieces : List Text) :
    Pieces depth pieces ↔ Pieces depth (pieces.map listMarks) := by
  induction pieces generalizing depth with
  | nil => exact .rfl
  | cons piece pieces ih =>
      obtain ⟨whole, same⟩ := unsplit_marks depth piece
      rw [List.map_cons, Pieces, Pieces, whole, same, ih 0, ne_eq, ne_eq, List.map_eq_nil_iff]

/-- Pieces can be left out, and those that are kept be exchanged for others with the same marks. -/
theorem Pieces.filterMap (keep : Text → Option Text)
    (same : ∀ piece kept, keep piece = some kept → listMarks kept = listMarks piece)
    (pieces : List Text) (joined : Pieces 0 pieces) : Pieces 0 (pieces.filterMap keep) := by
  induction pieces with
  | nil => trivial
  | cons piece pieces ih =>
      have later := ih joined.2.2
      cases found : keep piece with
      | none => rwa [List.filterMap_cons_none found]
      | some kept =>
          obtain ⟨whole, depth⟩ := unsplit_marks 0 piece
          obtain ⟨wholeKept, depthKept⟩ := unsplit_marks 0 kept
          rw [same piece kept found] at wholeKept depthKept
          rw [List.filterMap_cons_some found]
          refine ⟨wholeKept.mpr (whole.mp joined.1), fun more => ?_, later⟩
          rw [depthKept, ← depth]
          refine joined.2.1 fun empty => more ?_
          rw [empty, List.filterMap_nil]

end ScriptSense
