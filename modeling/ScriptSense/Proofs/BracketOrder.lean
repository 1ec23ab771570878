import ScriptSense.Proofs.Cut
import ScriptSense.Proofs.Outline

/-!
Texts whose parentheses and braces are nested in each other. Such a text closes all its braces, and
of the parentheses that are left when its blocks are emptied the first one opens. Handles are
attached within the segments between the braces, so emptying the blocks and attaching the handles
may change places.
-/
namespace ScriptSense

def isParen (c : Char) : Bool := c == '(' || c == ')'

/-- Parentheses and braces close in the reverse order in which they open. The stack holds what the
open ones wait for, innermost first. -/
def nested : List Char → Text → Bool
  | stack, [] => stack.isEmpty
  | stack, first :: rest =>
      if first = '(' then nested (')' :: stack) rest
      else if first = '{' then nested ('}' :: stack) rest
      else if first = ')' ∨ first = '}' then stack.head? = some first && nested stack.tail rest
      else nested stack rest

/-- How a character of a nested text changes the stack. -/
theorem nested_cons (stack : List Char) (first : Char) (rest : Text)
    (orderly : nested stack (first :: rest) = true) :
    first = '(' ∧ nested (')' :: stack) rest = true ∨
      first = '{' ∧ nested ('}' :: stack) rest = true ∨
      (∃ below, stack = first :: below ∧ (first = ')' ∨ first = '}') ∧ nested below rest = true) ∨
      isParen first = false ∧ braces.IsPlain first ∧ nested stack rest = true := by
  rw [nested] at orderly
  split at orderly
  · next same => exact .inl ⟨same, orderly⟩
  · next notOpening =>
      split at orderly
      · next same => exact .inr (.inl ⟨same, orderly⟩)
      · next notBrace =>
          split at orderly
          · next closes =>
              rw [Bool.and_eq_true, decide_eq_true_eq] at orderly
              obtain ⟨below, rfl⟩ := List.head?_eq_some_iff.mp orderly.1
              exact .inr (.inr (.inl ⟨below, rfl, closes, orderly.2⟩))
          · next other =>
              rw [not_or] at other
              exact .inr (.inr (.inr ⟨by simp [isParen, notOpening, other.1], ⟨notBrace, other.2⟩, orderly⟩))

theorem nested_braces (stack : List Char) (text : Text) (orderly : nested stack text = true) :
    braces.depthAfter? (stack.count '}') text = some 0 := by
  induction text generalizing stack with
  | nil =>
      rw [List.isEmpty_iff.mp orderly]
      rfl
  | cons first rest ih =>
      rcases nested_cons stack first rest orderly with
        ⟨rfl, later⟩ | ⟨rfl, later⟩ | ⟨below, rfl, rfl | rfl, later⟩ | ⟨_, plain, later⟩
      · simpa [Bracket.depthAfter?, braces] using ih _ later
      · simpa [Bracket.depthAfter?, braces] using ih _ later
      · simpa [Bracket.depthAfter?, braces] using ih _ later
      · simpa [Bracket.depthAfter?, braces] using ih _ later
      · simpa [Bracket.depthAfter?, plain.1, plain.2] using ih stack later

def InBraces (stack : List Char) : Prop := ∀ last, stack.getLast? = some last → last = '}'

theorem InBraces.below {top : Char} {stack : List Char} (inside : InBraces (top :: stack)) :
    InBraces stack := by
  intro last ends
  exact inside last (by rw [List.getLast?_cons, ends]; rfl)

theorem InBraces.above {stack : List Char} (inside : InBraces stack) (top : Char)
    (deeper : stack = [] → top = '}') : InBraces (top :: stack) := by
  intro last ends
  cases stack with
  | nil =>
      cases ends
      exact deeper rfl
  | cons next stack => exact inside last (by rwa [List.getLast?_cons_cons] at ends)

theorem InBraces.empty {stack : List Char} (inside : InBraces stack) (none : stack.count '}' = 0) :
    stack = [] := by
  cases ends : stack.getLast? with
  | none => exact List.getLast?_eq_none_iff.mp ends
  | some last =>
      obtain rfl := inside last ends
      exact absurd (List.mem_of_getLast? ends) (List.count_eq_zero.mp none)

-- Outside of all braces only an opening parenthesis can be met first, and inside of one the stack
-- ends with what that brace waits for.
theorem nested_first (stack : List Char) (text : Text) (orderly : nested stack text = true)
    (inside : InBraces stack) :
    (braces.outside (stack.count '}') text).find? isParen ≠ some ')' := by
  induction text generalizing stack with
  | nil => exact (Option.some_ne_none _).symm
  | cons first rest ih =>
      rcases nested_cons stack first rest orderly with
        ⟨rfl, later⟩ | ⟨rfl, later⟩ | ⟨below, rfl, rfl | rfl, later⟩ | ⟨noParen, plain, later⟩
      · by_cases outer : stack.count '}' = 0
        · simp [Bracket.outside, braces, outer, isParen]
        · have some_open : stack = [] → ')' = '}' := by
            rintro rfl
            exact absurd rfl outer
          simpa [Bracket.outside, braces, outer] using ih _ later (inside.above ')' some_open)
      · have deeper := ih _ later (inside.above '}' fun _ => rfl)
        by_cases outer : stack.count '}' = 0
        · simpa [Bracket.outside, braces, outer, isParen] using deeper
        · simpa [Bracket.outside, braces, outer] using deeper
      · have some_open : below.count '}' ≠ 0 := by
          intro outer
          obtain rfl := inside.below.empty outer
          exact absurd (inside ')' rfl) (by decide)
        simpa [Bracket.outside, braces, some_open] using ih below later inside.below
      · have shallower := ih below later inside.below
        by_cases outer : below.count '}' = 0
        · simpa [Bracket.outside, braces, outer, isParen] using shallower
        · simpa [Bracket.outside, braces, outer] using shallower
      · have same := ih stack later inside
        by_cases outer : stack.count '}' = 0
        · simpa [Bracket.outside, plain.1, plain.2, outer, noParen] using same
        · simpa [Bracket.outside, plain.1, plain.2, outer] using same

/-- Without its blocks a nested text has no parentheses, or the first one opens. -/
theorem nested_emptied (text : Text) (orderly : nested [] text = true) :
    (∀ c ∈ braces.emptied text, isParen c = false) ∨
      ∃ front rest, braces.emptied text = front ++ '(' :: rest ∧ ∀ c ∈ front, isParen c = false := by
  have first := nested_first [] text orderly (by rintro _ ⟨⟩)
  cases found : (braces.emptied text).find? isParen with
  | none => exact .inl fun c member => by simpa using List.find?_eq_none.mp found c member
  | some paren =>
      obtain ⟨isOne, front, rest, split, apart⟩ := List.find?_eq_some_iff_append.mp found
      have opening : paren = '(' := by
        rw [isParen, Bool.or_eq_true, beq_iff_eq, beq_iff_eq] at isOne
        refine isOne.resolve_right fun closing => first ?_
        rw [← closing]
        exact found
      subst opening
      exact .inr ⟨front, rest, split, fun c member => by simpa using apart c member⟩

theorem mem_outside (bracket : Bracket) (depth : Nat) (c : Char) (text : Text)
    (member : c ∈ bracket.outside depth text) : c ∈ text := by
  induction text generalizing depth with
  | nil => exact member
  | cons first rest ih =>
      have kept (depth : Nat) (inside : c ∈ first :: bracket.outside depth rest) : c ∈ first :: rest :=
        (List.mem_cons.mp inside).elim (fun same => same ▸ List.mem_cons_self) fun later =>
          List.mem_cons_of_mem first (ih depth later)
      have dropped (depth : Nat) (inside : c ∈ bracket.outside depth rest) : c ∈ first :: rest :=
        List.mem_cons_of_mem first (ih depth inside)
      rw [Bracket.outside] at member
      split at member
      · split at member
        · exact kept _ member
        · exact dropped _ member
      · split at member
        · split at member
          · exact kept _ member
          · exact dropped _ member
        · split at member
          · exact kept _ member
          · exact dropped _ member

/-- Emptying the blocks and attaching the handles may change places. -/
theorem outside_attachHandles (depth : Nat) (text : Text) :
    braces.outside depth (attachHandles text) = attachHandles (braces.outside depth text) := by
  have attached := attachHandles_every braces.IsPlain (by decide)
  have brace (stop : Char) (mark : ¬braces.IsPlain stop) :
      isInlineBlank stop = false ∧ stop ≠ '@' ∧ endsType stop = false := by
    by_cases opens : stop = '{'
    · subst opens
      decide
    · by_cases closes : stop = '}'
      · subst closes
        decide
      · exact absurd ⟨opens, closes⟩ mark
  induction text using braces.segments generalizing depth with
  | plain text plain =>
      rw [braces.outside_plain depth _ (attached text plain), braces.outside_plain depth text plain]
      split <;> rfl
  | segment lead stop rest plain mark ih =>
      obtain ⟨inline, notHandle, notType⟩ := brace stop mark
      have apart (left right : Text) : attachHandles (left ++ stop :: right) =
          attachHandles left ++ stop :: attachHandles right :=
        attachHandles_apart stop inline notHandle notType left right
      rw [apart, braces.outside_append, braces.outside_append, braces.nesting_plain _ _ plain,
        braces.nesting_plain _ _ (attached lead plain), braces.outside_plain _ _ plain,
        braces.outside_plain _ _ (attached lead plain), braces.outside_mark _ stop _ mark,
        braces.outside_mark _ stop _ mark, ih]
      by_cases outer : depth = 0
      · rw [if_pos outer, if_pos outer, if_pos (.inl outer), if_pos (.inl outer), apart]
      · rw [if_neg outer, if_neg outer, List.nil_append, List.nil_append]
        split
        · exact (apart [] _).symm
        · rfl

end ScriptSense
