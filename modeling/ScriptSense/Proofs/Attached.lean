import ScriptSense.Proofs.Cut

/-!
Texts whose handles are attached. Such a text stays as it is when handles are attached to it, and so
does every part of it. Attaching handles to any text gives such a text.
-/
namespace ScriptSense

def Adjacent (text : Text) : Prop := text.takeWhile isInlineBlank = [] ∨ Attached text

/-- No handle stands apart from a type in front of it. -/
def AllAttached : Text → Prop
  | [] => True
  | first :: rest => (endsType first = true → Adjacent rest) ∧ AllAttached rest

theorem attached_inline (text : Text) (inline : ∀ c ∈ text, isInlineBlank c = true) :
    Attached text := by
  simp [Attached, List.dropWhile_eq_nil_iff.mpr inline]

/-- The first character that is no blank decides, whatever comes behind it. -/
theorem adjacent_stop (blanks : Text) (stop : Char) (rest other : Text)
    (inline : ∀ c ∈ blanks, isInlineBlank c = true) (refused : isInlineBlank stop = false)
    (adjacent : Adjacent (blanks ++ stop :: rest)) : Adjacent (blanks ++ stop :: other) := by
  have stops (behind : Text) : Stops isInlineBlank (stop :: behind) :=
    (stops_cons isInlineBlank stop behind).mpr refused
  rw [Adjacent, Attached, Text.takeWhile_run _ _ _ inline (stops _),
    Text.dropWhile_run _ _ _ inline (stops _)] at adjacent ⊢
  exact adjacent

theorem adjacent_front (front back : Text) (adjacent : Adjacent (front ++ back)) : Adjacent front := by
  rcases blanks_split front with inline | ⟨blanks, stop, rest, rfl, inline, refused⟩
  · exact .inr (attached_inline front inline)
  · rw [List.append_assoc] at adjacent
    exact adjacent_stop blanks stop _ rest inline refused adjacent

theorem adjacent_append (front back : Text) (adjacent : Adjacent front) (attached : Attached back) :
    Adjacent (front ++ back) := by
  rcases blanks_split front with inline | ⟨blanks, stop, rest, rfl, inline, refused⟩
  · exact .inr ((attached_blanks front back inline).mpr attached)
  · rw [List.append_assoc]
    exact adjacent_stop blanks stop rest _ inline refused adjacent

theorem attached_unmarked (text : Text) (unmarked : '@' ∉ text) : Attached text := fun head =>
  unmarked ((List.dropWhile_suffix _).mem (List.mem_of_head? head))

namespace AllAttached

theorem unmarked (text : Text) (unmarked : '@' ∉ text) : AllAttached text := by
  induction text with
  | nil => trivial
  | cons first rest ih =>
      rw [List.mem_cons, not_or] at unmarked
      exact ⟨fun _ => .inr (attached_unmarked rest unmarked.2), ih unmarked.2⟩

theorem visible (text : Text) (visible : ∀ c ∈ text, isBlank c = false) : AllAttached text := by
  induction text with
  | nil => trivial
  | cons first rest ih =>
      rw [List.forall_mem_cons] at visible
      refine ⟨fun _ => .inl ?_, ih visible.2⟩
      cases rest with
      | nil => rfl
      | cons second more =>
          have shown := visible.2 second List.mem_cons_self
          rw [List.takeWhile_cons_of_neg (by simp [isInlineBlank, shown])]

theorem front (front back : Text) (handles : AllAttached (front ++ back)) : AllAttached front := by
  induction front with
  | nil => trivial
  | cons first rest ih =>
      refine ⟨fun ends => ?_, ih handles.2⟩
      exact adjacent_front rest back (handles.1 ends)

theorem back (front back : Text) (handles : AllAttached (front ++ back)) : AllAttached back := by
  induction front with
  | nil => exact handles
  | cons first rest ih => exact ih handles.2

theorem append (front back : Text) (handlesFront : AllAttached front) (handlesBack : AllAttached back)
    (attached : Attached back) : AllAttached (front ++ back) := by
  induction front with
  | nil => exact handlesBack
  | cons first rest ih =>
      refine ⟨fun ends => ?_, ih handlesFront.2⟩
      exact adjacent_append rest back (handlesFront.1 ends) attached

/-- Behind characters that end no type every handle may stand. -/
theorem behind (lead rest : Text) (apart : ∀ c ∈ lead, endsType c = false) (handles : AllAttached rest) :
    AllAttached (lead ++ rest) := by
  induction lead with
  | nil => exact handles
  | cons first lead ih =>
      rw [List.forall_mem_cons] at apart
      refine ⟨fun ends => ?_, ih apart.2⟩
      rw [apart.1] at ends
      cases ends

theorem trim (text : Text) (handles : AllAttached text) : AllAttached (Text.trim text) := by
  obtain ⟨lead, trail, split⟩ := Text.trim_split text
  rw [split] at handles
  exact front _ trail.text (back lead.text _ handles)

theorem attached (text : Text) (handles : AllAttached text) : attachHandles text = text := by
  induction text with
  | nil => rfl
  | cons first rest ih =>
      rw [attachHandles, ih handles.2]
      split
      · next ends => rw [pullHandle_kept rest (handles.1 ends)]
      · rfl

end AllAttached

theorem allAttached_spaces (count : Nat) (rest : Text) (handles : AllAttached rest) :
    AllAttached (Text.spaces count ++ rest) := by
  refine .behind _ rest (fun c member => ?_) handles
  rw [List.eq_of_mem_replicate member]
  decide

theorem allAttached_pullHandle (text : Text) (handles : AllAttached text) :
    AllAttached (pullHandle text) ∧ Adjacent (pullHandle text) := by
  by_cases detached : text.takeWhile isInlineBlank ≠ [] ∧
      (text.dropWhile isInlineBlank).head? = some '@'
  · obtain ⟨rest, marked⟩ := List.head?_eq_some_iff.mp detached.2
    rw [← List.takeWhile_append_dropWhile (p := isInlineBlank) (l := text), marked,
      ← List.takeWhile_append_dropWhile (p := isInlineBlank) (l := rest)] at handles
    have later := ((handles.back _ _).2).back _ _
    rw [pullHandle_detached text rest detached.1 marked]
    exact ⟨⟨fun ends => absurd ends (by decide), allAttached_spaces _ _ later⟩, .inl rfl⟩
  · have kept : Adjacent text := by
      rw [Adjacent, Attached]
      tauto
    rw [pullHandle_kept text kept]
    exact ⟨handles, kept⟩

theorem allAttached_attachHandles (text : Text) : AllAttached (attachHandles text) := by
  induction text with
  | nil => trivial
  | cons first rest ih =>
      rw [attachHandles]
      split
      · obtain ⟨later, adjacent⟩ := allAttached_pullHandle _ ih
        exact ⟨fun _ => adjacent, later⟩
      · next notType => exact ⟨fun ends => absurd ends notType, ih⟩

end ScriptSense
