import Mathlib.Data.List.TakeDrop
import Mathlib.Data.List.TakeWhile
import ScriptSense.Text

/-!
The character classes apart: no blank is a name or word character, so a run of one class ends where
a run of the other begins. Readers take maximal runs; the lemmas below give the run and the rest
when the text is written as a run and what stops it.
-/
namespace ScriptSense

-- What holds of every character of a text is decided along the text, not over all characters.
instance (priority := 2000) decidableEvery {α : Type} (list : List α) (holds : α → Prop)
    [DecidablePred holds] : Decidable (∀ x ∈ list, holds x) :=
  List.decidableBAll holds list

def codes (ranges : List (Nat × Nat)) : List Nat :=
  ranges.flatMap fun range => List.range' range.1 (range.2 + 1 - range.1)

theorem mem_codes (ranges : List (Nat × Nat)) (code : Nat)
    (inside : inRanges ranges code = true) : code ∈ codes ranges := by
  obtain ⟨range, member, bounds⟩ := List.any_eq_true.mp inside
  simp only [Bool.and_eq_true, decide_eq_true_eq] at bounds
  refine List.mem_flatMap.mpr ⟨range, member, List.mem_range'_1.mpr ⟨bounds.1, ?_⟩⟩
  omega

-- White space is a short table, so its code points are looked up in the three long ones.
theorem white_space_apart :
    ∀ code ∈ codes whiteSpace,
      isNameChar (Char.ofNat code) = false ∧ isWordChar (Char.ofNat code) = false ∧
        isPlainChar (Char.ofNat code) = false := by
  decide +kernel

theorem blank_apart (c : Char) (blank : isBlank c = true) :
    isNameChar c = false ∧ isWordChar c = false ∧ isPlainChar c = false := by
  have listed := white_space_apart c.toNat (mem_codes whiteSpace c.toNat blank)
  rwa [Char.ofNat_toNat] at listed

theorem blank_not_name (c : Char) (blank : isBlank c = true) : isNameChar c = false :=
  (blank_apart c blank).1

theorem blank_not_word (c : Char) (blank : isBlank c = true) : isWordChar c = false :=
  (blank_apart c blank).2.1

theorem blank_not_plain (c : Char) (blank : isBlank c = true) : isPlainChar c = false :=
  (blank_apart c blank).2.2

theorem name_not_blank (c : Char) (name : isNameChar c = true) : isBlank c = false := by
  cases blank : isBlank c with
  | false => rfl
  | true => simp [blank_not_name c blank] at name

theorem word_not_blank (c : Char) (word : isWordChar c = true) : isBlank c = false := by
  cases blank : isBlank c with
  | false => rfl
  | true => simp [blank_not_word c blank] at word

theorem plain_not_blank (c : Char) (plain : isPlainChar c = true) : isBlank c = false := by
  cases blank : isBlank c with
  | false => rfl
  | true => simp [blank_not_plain c blank] at plain

theorem kept_ne (keep : Char → Bool) (c other : Char) (kept : keep c = true)
    (refused : keep other = false) : c ≠ other := by
  rintro rfl
  rw [kept] at refused
  contradiction

structure Gap where
  text : Text
  blank : ∀ c ∈ text, isBlank c = true := by decide

def Gap.none : Gap := { text := [] }

def Gap.one : Gap := { text := [' '] }

/-- No run of the class goes on into the text. -/
def Stops (keep : Char → Bool) (rest : Text) : Prop :=
  ∀ c, rest.head? = some c → keep c = false

theorem stops_cons (keep : Char → Bool) (first : Char) (rest : Text) :
    Stops keep (first :: rest) ↔ keep first = false := by
  simp [Stops]

theorem stops_append (keep : Char → Bool) (lead rest : Text)
    (apart : ∀ c ∈ lead, keep c = false) (stop : Stops keep rest) :
    Stops keep (lead ++ rest) := by
  cases lead with
  | nil => exact stop
  | cons first lead => exact (stops_cons keep first _).mpr (apart first List.mem_cons_self)

theorem stops_reverse (keep : Char → Bool) (lead tail : Text) (some_char : tail ≠ []) :
    Stops keep (lead ++ tail).reverse ↔ Stops keep tail.reverse := by
  obtain ⟨last, others, shape⟩ :=
    List.exists_cons_of_ne_nil (List.reverse_ne_nil_iff.mpr some_char)
  rw [List.reverse_append, shape, List.cons_append, stops_cons, stops_cons]

theorem stops_apart (keep : Char → Bool) (text : Text) (apart : ∀ c ∈ text, keep c = false) :
    Stops keep text.reverse := by
  intro c head
  exact apart c (List.mem_reverse.mp (List.mem_of_head? head))

namespace Text

theorem dropWhile_run (keep : Char → Bool) (run rest : Text)
    (inside : ∀ c ∈ run, keep c = true) (stop : Stops keep rest) :
    (run ++ rest).dropWhile keep = rest := by
  rw [List.dropWhile_append_of_pos inside]
  cases rest with
  | nil => rfl
  | cons first rest => simp [(stops_cons keep first rest).mp stop]

theorem takeWhile_run (keep : Char → Bool) (run rest : Text)
    (inside : ∀ c ∈ run, keep c = true) (stop : Stops keep rest) :
    (run ++ rest).takeWhile keep = run := by
  rw [List.takeWhile_append_of_pos inside]
  cases rest with
  | nil => simp
  | cons first rest => simp [(stops_cons keep first rest).mp stop]

theorem span_run (keep : Char → Bool) (run rest : Text)
    (inside : ∀ c ∈ run, keep c = true) (stop : Stops keep rest) :
    (run ++ rest).span keep = (run, rest) := by
  rw [List.span_eq_takeWhile_dropWhile, takeWhile_run keep run rest inside stop,
    dropWhile_run keep run rest inside stop]

theorem identifier_chars (text : Text) (identifier : isIdentifier text = true) :
    text ≠ [] ∧ ∀ c ∈ text, isNameChar c = true := by
  rw [isIdentifier, Bool.and_eq_true, Bool.not_eq_true', List.isEmpty_eq_false_iff,
    List.all_eq_true] at identifier
  exact identifier

/-- A text with a character outside of the class is cut at the first one. -/
theorem split_refused (keep : Char → Bool) (text : Text) (refused : text.all keep = false) :
    ∃ run stop rest, text = run ++ stop :: rest ∧ (∀ c ∈ run, keep c = true) ∧ keep stop = false := by
  induction text with
  | nil => cases refused
  | cons first text ih =>
      cases kept : keep first with
      | false => exact ⟨[], first, text, rfl, nofun, kept⟩
      | true =>
          rw [List.all_cons, kept, Bool.true_and] at refused
          obtain ⟨run, stop, rest, rfl, inside, ends⟩ := ih refused
          exact ⟨first :: run, stop, rest, rfl, List.forall_mem_cons.mpr ⟨kept, inside⟩, ends⟩

theorem dropWhile_stop (keep : Char → Bool) (stop : Char) (refused : keep stop = false)
    (lead rest : Text) :
    (lead ++ stop :: rest).dropWhile keep = lead.dropWhile keep ++ stop :: rest := by
  induction lead with
  | nil => simp [refused]
  | cons first lead ih =>
      cases kept : keep first with
      | true => simpa [kept] using ih
      | false => simp [kept]

theorem takeWhile_stop (keep : Char → Bool) (stop : Char) (refused : keep stop = false)
    (lead rest : Text) : (lead ++ stop :: rest).takeWhile keep = lead.takeWhile keep := by
  induction lead with
  | nil => simp [refused]
  | cons first lead ih =>
      cases kept : keep first with
      | true => simpa [kept] using ih
      | false => simp [kept]

theorem span_absent (c : Char) (text : Text) (absent : c ∉ text) :
    text.span (· != c) = (text, []) := by
  have kept : ∀ d ∈ text, (d != c) = true := by
    intro d member
    rw [bne_iff_ne]
    rintro rfl
    exact absent member
  have run := span_run (· != c) text [] kept (by simp [Stops])
  rwa [List.append_nil] at run

theorem span_first (c : Char) (lead rest : Text) (absent : c ∉ lead) :
    (lead ++ c :: rest).span (· != c) = (lead, c :: rest) := by
  have parts := span_absent c lead absent
  rw [List.span_eq_takeWhile_dropWhile, Prod.mk.injEq] at parts
  rw [List.span_eq_takeWhile_dropWhile, takeWhile_stop _ c (by simp), dropWhile_stop _ c (by simp),
    parts.1, parts.2]
  rfl

theorem run?_run (keep : Char → Bool) (run rest : Text) (some_char : run ≠ [])
    (inside : ∀ c ∈ run, keep c = true) (stop : Stops keep rest) :
    run? keep (run ++ rest) = some (run, rest) := by
  rw [run?, span_run keep run rest inside stop]
  cases run with
  | nil => exact absurd rfl some_char
  | cons first run => rfl

theorem run?_stops (keep : Char → Bool) (rest : Text) (stop : Stops keep rest) :
    run? keep rest = none := by
  have split := span_run keep [] rest (by simp) stop
  rw [List.nil_append] at split
  rw [run?, split]

theorem after?_append (lead rest : Text) : after? lead (lead ++ rest) = some rest := by
  induction lead with
  | nil => cases rest <;> rfl
  | cons first lead ih => rw [List.cons_append, after?, if_pos rfl, ih]

theorem after?_some (lead text behind : Text) (read : after? lead text = some behind) :
    text = lead ++ behind := by
  induction lead generalizing text with
  | nil =>
      cases text <;> exact Option.some.inj read
  | cons first lead ih =>
      cases text with
      | nil => cases read
      | cons head rest =>
          by_cases same : first = head
          · rw [after?, if_pos same] at read
            rw [ih rest read, same, List.cons_append]
          · rw [after?, if_neg same] at read
            cases read

/-- A lead without a character does not reach beyond one. -/
theorem after?_apart (stop : Char) (lead text rest behind : Text) (absent : stop ∉ lead)
    (read : after? lead (text ++ stop :: rest) = some behind) :
    ∃ more, text = lead ++ more ∧ behind = more ++ stop :: rest := by
  rcases List.append_eq_append_iff.mp (after?_some _ _ _ read) with
    ⟨middle, front, further⟩ | ⟨middle, front, further⟩
  · cases middle with
    | nil =>
        rw [List.append_nil] at front
        rw [List.nil_append] at further
        exact ⟨[], by rw [front, List.append_nil], further.symm⟩
    | cons first middle =>
        rw [front, ← (List.cons.inj further).1] at absent
        exact absurd (List.mem_append_right _ List.mem_cons_self) absent
  · exact ⟨middle, front, further⟩

theorem afterSome?_some (skip : Char → Bool) (text rest : Text) (read : afterSome? skip text = some rest) :
    text = text.takeWhile skip ++ rest ∧ text.takeWhile skip ≠ [] := by
  cases text with
  | nil => cases read
  | cons first text =>
      rw [afterSome?] at read
      split at read
      · next skipped =>
          rw [List.takeWhile_cons_of_pos skipped, ← Option.some.inj read, List.cons_append,
            List.takeWhile_append_dropWhile]
          exact ⟨rfl, List.cons_ne_nil _ _⟩
      · cases read

theorem span_stop (keep : Char → Bool) (stop : Char) (refused : keep stop = false)
    (lead rest : Text) :
    (lead ++ stop :: rest).span keep =
      (lead.takeWhile keep, lead.dropWhile keep ++ stop :: rest) := by
  rw [List.span_eq_takeWhile_dropWhile, takeWhile_stop keep stop refused,
    dropWhile_stop keep stop refused]

theorem stops_dropWhile (drop : Char → Bool) (text : Text) : Stops drop (text.dropWhile drop) := by
  intro c head
  have refused := List.head?_dropWhile_not drop text
  simpa [head] using refused

theorem trimStart_gap (gap : Gap) (rest : Text) (stop : Stops isBlank rest) :
    trimStart (gap.text ++ rest) = rest :=
  dropWhile_run isBlank gap.text rest gap.blank stop

theorem takeEndWhile_run (keep : Char → Bool) (front run : Text)
    (inside : ∀ c ∈ run, keep c = true) (stop : Stops keep front.reverse) :
    takeEndWhile keep (front ++ run) = run := by
  have kept : ∀ c ∈ run.reverse, keep c = true := fun c member =>
    inside c (List.mem_reverse.mp member)
  rw [takeEndWhile, List.reverse_append, takeWhile_run keep _ _ kept stop, List.reverse_reverse]

theorem dropEndWhile_run (keep : Char → Bool) (front run : Text)
    (inside : ∀ c ∈ run, keep c = true) (stop : Stops keep front.reverse) :
    dropEndWhile keep (front ++ run) = front := by
  have kept : ∀ c ∈ run.reverse, keep c = true := fun c member =>
    inside c (List.mem_reverse.mp member)
  rw [dropEndWhile, List.reverse_append, dropWhile_run keep _ _ kept stop, List.reverse_reverse]

theorem dropEndWhile_append (keep : Char → Bool) (text : Text) :
    dropEndWhile keep text ++ takeEndWhile keep text = text := by
  rw [dropEndWhile, takeEndWhile, ← List.reverse_append, List.takeWhile_append_dropWhile,
    List.reverse_reverse]

theorem mem_takeEndWhile (keep : Char → Bool) (front : Text) (c : Char) (run : Text)
    (inside : ∀ d ∈ c :: run, keep d = true) : c ∈ takeEndWhile keep (front ++ c :: run) := by
  have kept : ∀ d ∈ (c :: run).reverse, keep d = true := fun d member =>
    inside d (List.mem_reverse.mp member)
  rw [takeEndWhile, List.reverse_append, List.takeWhile_append_of_pos kept]
  simp

theorem mem_dropWhile (drop : Char → Bool) (c : Char) (kept : drop c = false) (text : Text)
    (member : c ∈ text) : c ∈ text.dropWhile drop := by
  rw [← List.takeWhile_append_dropWhile (p := drop) (l := text), List.mem_append] at member
  rcases member with dropped | inRest
  · rw [List.mem_takeWhile_imp dropped] at kept
    cases kept
  · exact inRest

theorem trimEnd_gap (text : Text) (gap : Gap) (stop : Stops isBlank text.reverse) :
    trimEnd (text ++ gap.text) = text :=
  dropEndWhile_run isBlank text gap.text gap.blank stop

theorem trimStart_split (text : Text) : ∃ gap : Gap, text = gap.text ++ trimStart text :=
  ⟨⟨text.takeWhile isBlank, fun _ member => List.mem_takeWhile_imp member⟩,
    List.takeWhile_append_dropWhile.symm⟩

end Text

end ScriptSense
