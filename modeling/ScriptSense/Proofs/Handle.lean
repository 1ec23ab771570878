import Mathlib.Data.List.Induction
import ScriptSense.Layout
import ScriptSense.Proofs.Class

/-!
Attaching handles to parts of a text. A handle is moved over blanks only, so a character other than
a blank or a handle keeps both sides apart, and blanks around a text stay in front of and behind it.
-/
namespace ScriptSense

namespace Text

structure Trimmed (text : Text) : Prop where
  first : Stops isBlank text
  last : Stops isBlank text.reverse

theorem trimmed_visible (text : Text) (visible : ∀ c ∈ text, isBlank c = false) : text.Trimmed where
  first := fun c head => visible c (List.mem_of_head? head)
  last := stops_apart isBlank text visible

theorem trim_gaps (lead : Gap) (text : Text) (trail : Gap) (trimmed : text.Trimmed) :
    trim (lead.text ++ (text ++ trail.text)) = text := by
  cases text with
  | nil =>
      have blank : ∀ c ∈ lead.text ++ ([] ++ trail.text), isBlank c = true := by
        intro c member
        rcases List.mem_append.mp member with inLead | inTrail
        · exact lead.blank c inLead
        · exact trail.blank c inTrail
      have empty := dropWhile_run isBlank _ [] blank (by simp [Stops])
      rw [List.append_nil] at empty
      rw [trim, trimStart, empty]
      rfl
  | cons first rest =>
      have stop : Stops isBlank ((first :: rest) ++ trail.text) :=
        (stops_cons isBlank first _).mpr ((stops_cons isBlank first rest).mp trimmed.first)
      rw [trim, trimStart_gap lead _ stop, trimEnd_gap _ trail trimmed.last]

theorem trimEnd_split (text : Text) : ∃ trail : Gap, text = trimEnd text ++ trail.text := by
  refine ⟨⟨takeEndWhile isBlank text, fun c member => ?_⟩, (dropEndWhile_append isBlank text).symm⟩
  exact List.mem_takeWhile_imp (List.mem_reverse.mp member)

/-- A text as its blanks in front, the trimmed text and its blanks behind. -/
theorem trim_split (text : Text) :
    ∃ lead trail : Gap, text = lead.text ++ (trim text ++ trail.text) := by
  obtain ⟨trail, behind⟩ := trimEnd_split (trimStart text)
  obtain ⟨lead, split⟩ := trimStart_split text
  exact ⟨lead, trail, by rw [trim, ← behind, ← split]⟩

theorem trimmed_trim (text : Text) : (trim text).Trimmed where
  first := by
    intro c head
    obtain ⟨rest, shape⟩ := List.head?_eq_some_iff.mp head
    obtain ⟨trail, split⟩ := trimEnd_split (trimStart text)
    have stop : Stops isBlank (trimStart text) := stops_dropWhile isBlank text
    rw [split, ← trim, shape, List.cons_append, stops_cons] at stop
    exact stop
  last := by
    rw [trim, trimEnd, dropEndWhile, List.reverse_reverse]
    exact stops_dropWhile isBlank _

theorem trim_trimmed (text : Text) (trimmed : text.Trimmed) : trim text = text := by
  have none := trim_gaps .none text .none trimmed
  simpa [Gap.none] using none

theorem trim_chars (text : Text) (c : Char) (member : c ∈ text) :
    isBlank c = true ∨ c ∈ trim text := by
  obtain ⟨lead, trail, split⟩ := trim_split text
  rw [split, List.mem_append, List.mem_append] at member
  rcases member with inLead | inside | inTrail
  · exact .inl (lead.blank c inLead)
  · exact .inr inside
  · exact .inl (trail.blank c inTrail)

/-- Of a text that begins with no blank, trimming takes blanks at its end only. -/
theorem trim_front (text : Text) (stop : Stops isBlank text) :
    ∃ trail : Gap, text = trim text ++ trail.text := by
  have whole : trimStart text = text := trimStart_gap .none text stop
  rw [trim, whole]
  exact trimEnd_split text

theorem of_mem_trim (c : Char) (text : Text) (member : c ∈ trim text) : c ∈ text := by
  obtain ⟨lead, trail, split⟩ := trim_split text
  rw [split]
  exact List.mem_append_right _ (List.mem_append_left _ member)

theorem mem_trim (c : Char) (notBlank : isBlank c = false) (text : Text) (member : c ∈ text) :
    c ∈ trim text := by
  have inStart := mem_dropWhile isBlank c notBlank text member
  have inEnd := mem_dropWhile isBlank c notBlank _ (List.mem_reverse.mpr inStart)
  exact List.mem_reverse.mpr inEnd

end Text

theorem endsType_cases (c : Char) (ends : endsType c = true) :
    isWordChar c = true ∨ c = ']' ∨ c = '>' := by
  simpa [endsType, or_assoc] using ends

theorem blank_not_endsType (c : Char) (blank : isBlank c = true) : endsType c = false := by
  cases ends : endsType c with
  | false => rfl
  | true =>
      rcases endsType_cases c ends with word | rfl | rfl
      · rw [blank_not_word c blank] at word
        contradiction
      · exact absurd blank (by decide)
      · exact absurd blank (by decide)

theorem pullHandle_stop (stop : Char) (notBlank : isInlineBlank stop = false)
    (notHandle : stop ≠ '@') (left rest : Text) :
    pullHandle (left ++ stop :: rest) = pullHandle left ++ stop :: rest := by
  simp only [pullHandle, List.span_eq_takeWhile_dropWhile, Text.takeWhile_stop _ stop notBlank,
    Text.dropWhile_stop _ stop notBlank]
  cases left.takeWhile isInlineBlank with
  | nil => rfl
  | cons blank blanks =>
      cases left.dropWhile isInlineBlank with
      | nil => simp [notHandle]
      | cons mark later =>
          by_cases handle : mark = '@'
          · subst handle
            simp [Text.takeWhile_stop _ stop notBlank, Text.dropWhile_stop _ stop notBlank]
          · simp [handle]

theorem pullHandle_gap (gap : Gap) : pullHandle gap.text = gap.text := by
  simp only [pullHandle, List.span_eq_takeWhile_dropWhile]
  split
  · next blank blanks rest _ marked =>
      have member : '@' ∈ gap.text := (List.dropWhile_suffix isInlineBlank).mem (by simp [marked])
      exact absurd (gap.blank '@' member) (by decide)
  · rfl

theorem attachHandles_head (first : Char) (rest : Text) :
    ∃ later, attachHandles (first :: rest) = first :: later := by
  rw [attachHandles]
  split
  · exact ⟨_, rfl⟩
  · exact ⟨_, rfl⟩

theorem attachHandles_stop (stop : Char) (notBlank : isInlineBlank stop = false)
    (notHandle : stop ≠ '@') (left rest : Text) :
    attachHandles (left ++ stop :: rest) = attachHandles left ++ attachHandles (stop :: rest) := by
  obtain ⟨later, shape⟩ := attachHandles_head stop rest
  induction left with
  | nil => rfl
  | cons first left ih =>
      rw [shape] at ih ⊢
      by_cases ends : endsType first = true
      · simp [attachHandles, ends, ih, pullHandle_stop stop notBlank notHandle]
      · simp [attachHandles, ends, ih]

theorem attachHandles_stops (text : Text) (stop : Stops isBlank text) :
    Stops isBlank (attachHandles text) := by
  cases text with
  | nil => exact stop
  | cons first rest =>
      obtain ⟨later, shape⟩ := attachHandles_head first rest
      rw [shape]
      exact (stops_cons isBlank first later).mpr ((stops_cons isBlank first rest).mp stop)

/-- A character that no handle can follow or reach keeps the texts on its sides apart. -/
theorem attachHandles_apart (stop : Char) (notBlank : isInlineBlank stop = false)
    (notHandle : stop ≠ '@') (notType : endsType stop = false) (left rest : Text) :
    attachHandles (left ++ stop :: rest) = attachHandles left ++ stop :: attachHandles rest := by
  rw [attachHandles_stop stop notBlank notHandle, attachHandles, if_neg (by simp [notType])]

theorem attachHandles_gap (gap : Gap) (rest : Text) :
    attachHandles (gap.text ++ rest) = gap.text ++ attachHandles rest := by
  obtain ⟨text, blank⟩ := gap
  induction text with
  | nil => rfl
  | cons first text ih =>
      have here := blank_not_endsType first (blank first List.mem_cons_self)
      have later := ih fun c member => blank c (List.mem_cons_of_mem first member)
      simp only [List.cons_append, attachHandles, here, Bool.false_eq_true, if_false, later]

/-- Moving a handle leaves everything but blanks in place. -/
theorem pullHandle_marks (text : Text) :
    (pullHandle text).filter (!isBlank ·) = text.filter (!isBlank ·) := by
  have blanks (part : Text) : (part.takeWhile isInlineBlank).filter (!isBlank ·) = [] := by
    rw [List.filter_eq_nil_iff]
    intro c member
    have inline := List.mem_takeWhile_imp member
    rw [isInlineBlank, Bool.and_eq_true] at inline
    simp [inline.1]
  have spaces (count : Nat) : (Text.spaces count).filter (!isBlank ·) = [] := by
    rw [List.filter_eq_nil_iff]
    intro c member
    rw [List.eq_of_mem_replicate member]
    decide
  have split (part : Text) : part.filter (!isBlank ·) =
      (part.dropWhile isInlineBlank).filter (!isBlank ·) := by
    rw [← List.takeWhile_append_dropWhile (p := isInlineBlank) (l := part), List.filter_append,
      blanks, List.nil_append, List.takeWhile_append_dropWhile]
  simp only [pullHandle, List.span_eq_takeWhile_dropWhile]
  split
  · next rest _ marked =>
      rw [split text, marked, List.filter_cons, List.filter_cons, List.filter_append, spaces,
        List.nil_append, ← split rest]
  · rfl

theorem attachHandles_marks (text : Text) :
    (attachHandles text).filter (!isBlank ·) = text.filter (!isBlank ·) := by
  induction text with
  | nil => rfl
  | cons first rest ih =>
      rw [attachHandles]
      split
      · rw [List.filter_cons, List.filter_cons, pullHandle_marks, ih]
      · rw [List.filter_cons, List.filter_cons, ih]

theorem mem_attachHandles (c : Char) (notBlank : isBlank c = false) (text : Text) :
    c ∈ attachHandles text ↔ c ∈ text := by
  have kept (text : Text) : c ∈ text.filter (!isBlank ·) ↔ c ∈ text := by
    simp [List.mem_filter, notBlank]
  rw [← kept, attachHandles_marks, kept]

/-- Moving a handle brings in no character but the space. -/
theorem mem_pullHandle (c : Char) (text : Text) (member : c ∈ pullHandle text) : c ∈ text ∨ c = ' ' := by
  simp only [pullHandle, List.span_eq_takeWhile_dropWhile] at member
  split at member
  · next rest _ marked =>
      rw [List.mem_cons, List.mem_append] at member
      have behind (inside : c ∈ '@' :: rest) : c ∈ text := by
        rw [← marked] at inside
        exact (List.dropWhile_suffix isInlineBlank).mem inside
      rcases member with rfl | inSpaces | inRest
      · exact .inl (behind List.mem_cons_self)
      · exact .inr (List.eq_of_mem_replicate inSpaces)
      · exact .inl (behind (List.mem_cons_of_mem _ ((List.dropWhile_suffix isInlineBlank).mem inRest)))
  · exact .inl member

theorem attachHandles_chars (c : Char) (text : Text) (member : c ∈ attachHandles text) :
    c ∈ text ∨ c = ' ' := by
  induction text with
  | nil => cases member
  | cons first rest ih =>
      obtain rfl | later : c = first ∨ c ∈ attachHandles rest ∨ c = ' ' := by
        rw [attachHandles] at member
        split at member
        · exact (List.mem_cons.mp member).imp_right (mem_pullHandle c _)
        · exact (List.mem_cons.mp member).imp_right .inl
      · exact .inl List.mem_cons_self
      · rcases later with inRest | space
        · exact (ih inRest).imp_left (List.mem_cons_of_mem first)
        · exact .inr space

/-- What holds of the space and of every character still does when handles are attached. -/
theorem attachHandles_every (holds : Char → Prop) (space : holds ' ') (text : Text)
    (every : ∀ c ∈ text, holds c) : ∀ c ∈ attachHandles text, holds c := by
  intro c member
  rcases attachHandles_chars c text member with inside | rfl
  · exact every c inside
  · exact space

theorem attachHandles_end (last : Char) (gap : Gap) :
    attachHandles (last :: gap.text) = last :: gap.text := by
  have alone := attachHandles_gap gap []
  rw [List.append_nil] at alone
  simp [attachHandles, alone, pullHandle_gap]

theorem getLast?_marks (text : Text) (last : Char) (notBlank : isBlank last = false)
    (ends : text.getLast? = some last) : (text.filter (!isBlank ·)).getLast? = some last := by
  obtain ⟨front, rfl⟩ := List.getLast?_eq_some_iff.mp ends
  simp [notBlank]

-- A trimmed text that ends in a word after its handles are attached does not end in a handle, so
-- the blanks behind it are not touched.
theorem attachHandles_trim (piece body : Text) (last : Char)
    (attached : attachHandles (Text.trim piece) = body) (ends : body.getLast? = some last)
    (word : isWordChar last = true) :
    ∃ lead trail : Gap, attachHandles piece = lead.text ++ (body ++ trail.text) := by
  obtain ⟨lead, trail, split⟩ := Text.trim_split piece
  have trimmed := Text.trimmed_trim piece
  have marks := attachHandles_marks (Text.trim piece)
  rw [attached] at marks
  cases core : Text.trim piece using List.reverseRec with
  | nil =>
      rw [core] at attached
      rw [← attached] at ends
      cases ends
  | append_singleton front other =>
      have notBlank : isBlank other = false := by
        have stop := trimmed.last
        rw [core, List.reverse_concat, stops_cons] at stop
        exact stop
      have same : other = last := by
        have left := getLast?_marks body last (word_not_blank last word) ends
        have right := getLast?_marks (Text.trim piece) other notBlank (by simp [core])
        rw [marks, right] at left
        exact Option.some.inj left
      subst same
      have notInline : isInlineBlank other = false := by simp [isInlineBlank, notBlank]
      have notHandle : other ≠ '@' := kept_ne isWordChar other '@' word rfl
      have apart (gap : Gap) : attachHandles (front ++ other :: gap.text) =
          attachHandles front ++ other :: gap.text := by
        rw [attachHandles_stop other notInline notHandle, attachHandles_end]
      have bodySplit : body = attachHandles front ++ [other] := by
        rw [← attached, core]
        exact apart .none
      refine ⟨lead, trail, ?_⟩
      rw [split, core, attachHandles_gap, bodySplit, List.append_assoc, List.append_assoc]
      exact congrArg (lead.text ++ ·) (apart trail)

end ScriptSense
