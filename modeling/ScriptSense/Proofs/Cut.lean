import ScriptSense.Proofs.Sanitized

/-!
Sanitizing a text that is cut at a cursor. A token that the cut leaves unfinished is blanked as the
whole token is up to there, and a handle reaches over a cut only if nothing but blanks stand between.
So the front of a sanitized text is the sanitized front, unless the cut makes a comment's first `/` a
division or separates a handle from its type.
-/
namespace ScriptSense

namespace Token

theorem extend_kind (mode next : Mode) (c : Char) (settled : mode ≠ .slash)
    (grows : mode.step c = .extend next) :
    next ≠ .slash ∧ ∀ closed, next.kind closed = mode.kind closed := by
  cases Mode.takes_of grows with
  | line | block => exact absurd rfl settled
  | code | lineComment | blockComment | escaped | backslash | string => exact ⟨nofun, fun _ => rfl⟩

theorem blankInterior_grows (closed : Bool) (text : Text) (c : Char) :
    blankInterior false text <+: blankInterior closed (text ++ [c]) := by
  cases text with
  | nil => exact List.nil_prefix
  | cons quote body =>
      cases closed with
      | true => simp [blankInterior]
      | false => simp [blankInterior, blank_append]

/-- A character behind a token that goes on changes nothing of what was blanked before. -/
theorem blanked_grows (mode : Mode) (closed : Bool) (text : Text) (c : Char) :
    blanked true ⟨mode.kind false, text⟩ <+: blanked true ⟨mode.kind closed, text ++ [c]⟩ := by
  cases mode with
  | code => exact List.prefix_append text [c]
  | slash => exact List.prefix_append text [c]
  | lineComment =>
      simp only [blanked, Mode.kind, blank_append]
      exact List.prefix_append _ _
  | blockComment star =>
      simp only [blanked, Mode.kind, blank_append]
      exact List.prefix_append _ _
  | string quote escaped => exact blankInterior_grows closed text c

theorem scan_blanked_prefix (mode : Mode) (held back : Text)
    (settled : mode = .slash → back.head? ≠ some '/' ∧ back.head? ≠ some '*') :
    blanked true ⟨mode.kind false, held.reverse⟩ <+:
      (scan (some (mode, held)) back).flatMap (blanked true) := by
  induction back generalizing mode held with
  | nil => simp [scan]
  | cons first rest ih =>
      rw [scan]
      cases step : mode.step first with
      | extend next =>
          have unfinished : mode ≠ .slash := by
            rintro rfl
            obtain ⟨notSlash, notStar⟩ := settled rfl
            simp only [List.head?_cons, ne_eq, Option.some.injEq] at notSlash notStar
            simp [Mode.step, notSlash, notStar] at step
          obtain ⟨waits, same⟩ := extend_kind mode next first unfinished step
          have later := ih next (first :: held) fun slash => absurd slash waits
          rw [same, List.reverse_cons] at later
          exact (blanked_grows mode false held.reverse first).trans later
      | close =>
          rw [List.flatMap_cons, List.reverse_cons]
          exact (blanked_grows mode true held.reverse first).trans (List.prefix_append _ _)
      | restart => exact List.prefix_append _ _

/-- The token in progress goes on as one of its kind; it takes a character more to be closed. -/
theorem scan_first (mode : Mode) (held rest : Text) (settled : mode ≠ .slash) :
    ∃ closed taken later, scan (some (mode, held)) rest =
        ⟨mode.kind closed, held.reverse ++ taken⟩ :: later ∧ (closed = true → taken ≠ []) := by
  induction rest generalizing mode held with
  | nil => exact ⟨false, [], [], by simp [scan], nofun⟩
  | cons first rest ih =>
      rw [scan]
      cases step : mode.step first with
      | extend next =>
          obtain ⟨waits, same⟩ := extend_kind mode next first settled step
          obtain ⟨closed, taken, later, tokens, _⟩ := ih next (first :: held) waits
          refine ⟨closed, first :: taken, later, ?_, fun _ => List.cons_ne_nil _ _⟩
          simp only [tokens, same, List.reverse_cons, List.append_assoc, List.singleton_append]
      | close => exact ⟨true, [first], _, by rw [List.reverse_cons], fun _ => List.cons_ne_nil _ _⟩
      | restart => exact ⟨false, [], _, by rw [List.append_nil], nofun⟩

theorem placed_mem (offset : Nat) (before after : List Token) (token : Token) :
    (offset + Text.byteLength (before.flatMap (·.text)), token) ∈
      placed offset (before ++ token :: after) := by
  induction before generalizing offset with
  | nil => exact List.mem_cons_self
  | cons first before ih =>
      have later := ih (offset + Text.byteLength first.text)
      rw [List.flatMap_cons, Text.byteLength_append, ← Nat.add_assoc]
      exact List.mem_cons_of_mem _ later

/-- Where a front ends in a `/` that waits, a `/` or `*` behind it opens a comment there. -/
theorem comment_placed (front rest : Text) (held : Text) (c : Char)
    (waiting : (run none front).2 = some (.slash, held)) (opens : c = '/' ∨ c = '*') :
    ∃ entry ∈ placed 0 (tokenize (front ++ c :: rest)),
      entry.2.kind.isComment = true ∧ Text.byteLength front = entry.1 + 1 := by
  have shape : held.reverse = ['/'] := (run_reads none front nofun).2 .slash held waiting
  have text : (run none front).1.flatMap (·.text) ++ ['/'] = front := by
    have all := run_text none front
    rw [waiting] at all
    simpa [heldText, shape] using all
  have commented : ∃ token later, scan (some (.slash, held)) (c :: rest) = token :: later ∧
      token.kind.isComment = true := by
    rcases opens with rfl | rfl
    · obtain ⟨closed, _, later, tokens, _⟩ := scan_first .lineComment ('/' :: held) rest (by simp)
      exact ⟨_, later, tokens, rfl⟩
    · obtain ⟨closed, _, later, tokens, _⟩ :=
        scan_first (.blockComment false) ('*' :: held) rest (by simp)
      exact ⟨_, later, tokens, rfl⟩
  obtain ⟨token, later, tokens, comment⟩ := commented
  have listed := placed_mem 0 (run none front).1 later token
  rw [← tokens, ← waiting, ← scan_run, Nat.zero_add] at listed
  refine ⟨_, listed, comment, ?_⟩
  conv_lhs => rw [← text]
  rw [Text.byteLength_append]
  rfl

end Token

theorem blankTrivia_prefix (front back : Text)
    (settled : ∀ held, (Token.run none front).2 = some (.slash, held) →
      back.head? ≠ some '/' ∧ back.head? ≠ some '*') :
    blankTrivia true front <+: blankTrivia true (front ++ back) := by
  rw [blankTrivia, blankTrivia, Token.tokenize_run, tokenize, Token.scan_run, List.flatMap_append,
    List.flatMap_append, List.prefix_append_right_inj]
  cases state : (Token.run none front).2 with
  | none => exact List.nil_prefix
  | some progress =>
      obtain ⟨mode, held⟩ := progress
      have grows := Token.scan_blanked_prefix mode held back fun slash => settled held (slash ▸ state)
      simpa [Token.scan] using grows

def Attached (text : Text) : Prop := (text.dropWhile isInlineBlank).head? ≠ some '@'

theorem attached_blanks (blanks rest : Text) (inline : ∀ c ∈ blanks, isInlineBlank c = true) :
    Attached (blanks ++ rest) ↔ Attached rest := by
  rw [Attached, Attached, List.dropWhile_append_of_pos inline]

theorem attached_dropWhile (text : Text) (attached : Attached text) :
    Attached (text.dropWhile isInlineBlank) := by
  rw [← List.takeWhile_append_dropWhile (p := isInlineBlank) (l := text)] at attached
  exact (attached_blanks _ _ fun _ member => List.mem_takeWhile_imp member).mp attached

theorem pullHandle_attached (text : Text) (attached : Attached text) : pullHandle text = text :=
  pullHandle_kept text (.inr attached)

theorem space_inline (count : Nat) : ∀ c ∈ Text.spaces count, isInlineBlank c = true := by
  intro c member
  rw [List.eq_of_mem_replicate member]
  decide

theorem blanks_split (text : Text) :
    (∀ c ∈ text, isInlineBlank c = true) ∨
      ∃ blanks stop rest, text = blanks ++ stop :: rest ∧
        (∀ c ∈ blanks, isInlineBlank c = true) ∧ isInlineBlank stop = false := by
  have split := List.takeWhile_append_dropWhile (p := isInlineBlank) (l := text)
  cases behind : text.dropWhile isInlineBlank with
  | nil => exact .inl (List.dropWhile_eq_nil_iff.mp behind)
  | cons stop rest =>
      rw [behind] at split
      refine .inr ⟨_, stop, rest, split.symm, fun _ member => List.mem_takeWhile_imp member, ?_⟩
      exact Text.stops_dropWhile isInlineBlank text stop (by rw [behind]; rfl)

-- Blanks behind a handle become spaces behind it, so blanks on both sides of a cut still add up.
theorem padding_append (gap : Nat) (left more : Text) (attached : Attached more) :
    ∃ later,
      Text.spaces (gap + Text.byteLength ((left ++ more).takeWhile isInlineBlank)) ++
          (left ++ more).dropWhile isInlineBlank =
        Text.spaces (gap + Text.byteLength (left.takeWhile isInlineBlank)) ++
          left.dropWhile isInlineBlank ++ later ∧
      Attached later := by
  rcases blanks_split left with inline | ⟨blanks, stop, rest, rfl, inline, refused⟩
  · have padded : Attached (Text.spaces (Text.byteLength (more.takeWhile isInlineBlank)) ++
        more.dropWhile isInlineBlank) :=
      (attached_blanks _ _ (space_inline _)).mpr (attached_dropWhile more attached)
    refine ⟨_, ?_, padded⟩
    rw [List.takeWhile_append_of_pos inline, List.dropWhile_append_of_pos inline,
      List.takeWhile_eq_self_iff.mpr inline, List.dropWhile_eq_nil_iff.mpr inline,
      Text.byteLength_append, ← Nat.add_assoc, Text.spaces, List.replicate_add, List.append_nil,
      List.append_assoc]
    rfl
  · refine ⟨more, ?_, attached⟩
    have stops (behind : Text) : Stops isInlineBlank (stop :: behind) :=
      (stops_cons isInlineBlank stop behind).mpr refused
    rw [List.append_assoc, List.cons_append, Text.takeWhile_run _ _ _ inline (stops _),
      Text.takeWhile_run _ _ _ inline (stops _), Text.dropWhile_run _ _ _ inline (stops _),
      Text.dropWhile_run _ _ _ inline (stops _), List.append_assoc, List.cons_append]

theorem pullHandle_append (left more : Text) (attached : Attached more) :
    ∃ later, pullHandle (left ++ more) = pullHandle left ++ later ∧ Attached later := by
  rcases blanks_split left with inline | ⟨blanks, stop, rest, rfl, inline, refused⟩
  · have whole : Attached (left ++ more) := (attached_blanks left more inline).mpr attached
    have own : Attached left := by simp [Attached, List.dropWhile_eq_nil_iff.mpr inline]
    exact ⟨more, by rw [pullHandle_attached _ whole, pullHandle_attached _ own], attached⟩
  · have gap (behind : Text) : (blanks ++ stop :: behind).takeWhile isInlineBlank = blanks :=
      Text.takeWhile_run _ _ _ inline ((stops_cons isInlineBlank stop behind).mpr refused)
    have marked (behind : Text) :
        (blanks ++ stop :: behind).dropWhile isInlineBlank = stop :: behind :=
      Text.dropWhile_run _ _ _ inline ((stops_cons isInlineBlank stop behind).mpr refused)
    rw [List.append_assoc, List.cons_append]
    by_cases detached : blanks ≠ [] ∧ stop = '@'
    · obtain ⟨some_blank, rfl⟩ := detached
      have moved (behind : Text) := pullHandle_detached (blanks ++ '@' :: behind) behind
        (by rwa [gap]) (marked behind)
      obtain ⟨later, padding, still⟩ :=
        padding_append (Text.byteLength blanks) rest more attached
      refine ⟨later, ?_, still⟩
      rw [moved, moved, gap, gap, padding, List.cons_append]
    · have kept (behind : Text) : pullHandle (blanks ++ stop :: behind) = blanks ++ stop :: behind := by
        refine pullHandle_kept _ ?_
        rw [gap, marked]
        simpa [or_iff_not_imp_left] using detached
      refine ⟨more, ?_, attached⟩
      rw [kept, kept, List.append_assoc, List.cons_append]

theorem attachHandles_attached (text : Text) (attached : Attached text) :
    Attached (attachHandles text) := by
  induction text with
  | nil => exact attached
  | cons first rest ih =>
      cases inline : isInlineBlank first with
      | true =>
          have blank : isBlank first = true := by
            rw [isInlineBlank, Bool.and_eq_true] at inline
            exact inline.1
          have skip (behind : Text) : Attached (first :: behind) ↔ Attached behind :=
            attached_blanks [first] behind (by simpa using inline)
          rw [attachHandles, if_neg (by simp [blank_not_endsType first blank])]
          exact (skip _).mpr (ih ((skip _).mp attached))
      | false =>
          obtain ⟨later, shape⟩ := attachHandles_head first rest
          rw [shape]
          simpa [Attached, inline] using attached

theorem attachHandles_append (left rest : Text) (attached : Attached rest) :
    ∃ later, attachHandles (left ++ rest) = attachHandles left ++ later ∧ Attached later := by
  induction left with
  | nil => exact ⟨attachHandles rest, rfl, attachHandles_attached rest attached⟩
  | cons first left ih =>
      obtain ⟨later, split, still⟩ := ih
      rw [List.cons_append, attachHandles, attachHandles, split]
      by_cases ends : endsType first = true
      · obtain ⟨behind, pulled, attachedBehind⟩ := pullHandle_append (attachHandles left) later still
        rw [if_pos ends, if_pos ends, pulled]
        exact ⟨behind, rfl, attachedBehind⟩
      · rw [if_neg ends, if_neg ends]
        exact ⟨later, rfl, still⟩

/-- At a cursor that divides no comment opening and no handle from its type, the front of the
sanitized text is what sanitizing the front alone gives. -/
theorem sanitize_cut (text : Text) (offset : Nat) (boundary : offset ∈ Text.boundaries text)
    (undivided : ∀ entry ∈ placed 0 (tokenize text), entry.2.kind.isComment = true →
      offset ≠ entry.1 + 1)
    (attached : Attached (Text.dropBytes offset (blankTrivia true text))) :
    Text.takeBytes offset (sanitize text) = sanitize (Text.takeBytes offset text) ∧
      (Script.parse text).upTo offset = sanitize (Text.takeBytes offset text) := by
  obtain ⟨front, back, rfl, rfl⟩ := (Text.mem_boundaries offset text).mp boundary
  have settled : ∀ held, (Token.run none front).2 = some (.slash, held) →
      back.head? ≠ some '/' ∧ back.head? ≠ some '*' := by
    intro held waiting
    have not_opening (c : Char) (opens : c = '/' ∨ c = '*') : back.head? ≠ some c := by
      intro first
      obtain ⟨rest, rfl⟩ := List.head?_eq_some_iff.mp first
      obtain ⟨entry, listed, comment, place⟩ := Token.comment_placed front rest held c waiting opens
      exact undivided entry listed comment place
    exact ⟨not_opening '/' (.inl rfl), not_opening '*' (.inr rfl)⟩
  obtain ⟨rest, split⟩ := blankTrivia_prefix front back settled
  have blanked := (blankTrivia_layout front).length
  rw [← split, ← blanked, Text.dropBytes_append] at attached
  obtain ⟨later, attachedSplit, _⟩ := attachHandles_append (blankTrivia true front) rest attached
  have length := ((blankTrivia_layout front).trans (attachHandles_layout _)).length
  have cut : Text.takeBytes (Text.byteLength front) (sanitize (front ++ back)) =
      sanitize (Text.takeBytes (Text.byteLength front) (front ++ back)) := by
    rw [Text.takeBytes_append, sanitize, ← split, attachedSplit, ← length, Text.takeBytes_append]
    rfl
  exact ⟨cut, cut⟩

-- The cut is inside of an escape sequence of a string that is closed behind it, and a comment follows.
theorem sanitize_cut_in_escape :
    let text : Text := "CBlob @ b = \"a\\\"é\"; // @ c".toList
    15 ∈ Text.boundaries text ∧
      Text.takeBytes 15 (sanitize text) = sanitize (Text.takeBytes 15 text) ∧
      Text.takeBytes 15 (sanitize text) = "CBlob@  b = \"  ".toList := by
  intro text
  have boundary : 15 ∈ Text.boundaries text := by decide +kernel
  have undivided : ∀ entry ∈ placed 0 (tokenize text), entry.2.kind.isComment = true →
      15 ≠ entry.1 + 1 := by
    decide +kernel
  obtain ⟨cut, _⟩ := sanitize_cut text 15 boundary undivided (by unfold Attached; decide +kernel)
  exact ⟨boundary, cut, by decide +kernel⟩

end ScriptSense
