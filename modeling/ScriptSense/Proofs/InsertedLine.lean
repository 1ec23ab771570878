import Mathlib.Data.List.DropRight
import ScriptSense.Manual
import ScriptSense.Proofs.AttachedList

/-!
A line put between the lines of a file of the manual. Readers that trim each line pass over a blank line
or a comment wherever it stands. The reader of enum members looks for the comment mark before it takes
the indentation away, so an indented comment of one word is a member to it.
-/
namespace ScriptSense

namespace Text

theorem trimEnd_trimEnd (text : Text) : trimEnd (trimEnd text) = trimEnd text := by
  simp only [trimEnd, dropEndWhile, List.reverse_reverse, List.dropWhile_idempotent]

theorem trim_trimEnd (text : Text) : trim (trimEnd text) = trim text := by
  obtain ⟨trail, split⟩ := trimEnd_split text
  conv_rhs => rw [split, trim_append_gap]

theorem trimEnd_nothing (text : Text) (nothing : trim text = []) : trimEnd text = [] := by
  obtain ⟨lead, trail, split⟩ := trim_split text
  rw [nothing, List.nil_append] at split
  have blank : ∀ c ∈ lead.text ++ trail.text, isBlank c = true := fun c member =>
    (List.mem_append.mp member).elim (lead.blank c) (trail.blank c)
  rw [split]
  exact trimEnd_gap [] ⟨_, blank⟩ nofun

/-- The text without the blanks at its end keeps those in front of it. -/
theorem trimEnd_lead (text : Text) (something : trim text ≠ []) :
    ∃ lead : Gap, trimEnd text = lead.text ++ trim text ∧ (lead.text = [] ↔ Stops isBlank text) := by
  obtain ⟨lead, trail, split⟩ := trim_split text
  have trimmed := trimmed_trim text
  refine ⟨lead, ?_, ?_⟩
  · conv_lhs => rw [split, ← List.append_assoc]
    exact trimEnd_gap _ trail ((stops_reverse isBlank _ _ something).mpr trimmed.last)
  · obtain ⟨first, rest, shape⟩ := List.exists_cons_of_ne_nil something
    have visible := trimmed.first
    rw [shape, stops_cons] at visible
    rw [split, shape]
    cases blanks : lead.text with
    | nil => simp [stops_cons, visible]
    | cons blank others =>
        have inLead : isBlank blank = true := lead.blank blank (blanks ▸ List.mem_cons_self)
        simp [stops_cons, inLead]

theorem lines_nil (text : Text) (nothing : lines text = []) : text = [] := by
  cases text with
  | nil => rfl
  | cons first rest =>
      rw [lines.eq_def] at nothing
      repeat' split at nothing
      all_goals simp_all

theorem trimEnd_append_gap (text : Text) (gap : Gap) : trimEnd (text ++ gap.text) = trimEnd text := by
  have blank : ∀ c ∈ gap.text.reverse, isBlank c = true := fun c member =>
    gap.blank c (List.mem_reverse.mp member)
  rw [trimEnd, dropEndWhile, List.reverse_append, List.dropWhile_append_of_pos blank]
  rfl

theorem trimEnd_cons (first : Char) (text other : Text) (same : trimEnd text = trimEnd other) :
    trimEnd (first :: text) = trimEnd (first :: other) := by
  obtain ⟨trail, split⟩ := trimEnd_split text
  obtain ⟨otherTrail, otherSplit⟩ := trimEnd_split other
  rw [split, otherSplit, ← List.cons_append, ← List.cons_append, trimEnd_append_gap,
    trimEnd_append_gap, same]

theorem trimStart_trimEnd (text : Text) : trimStart (trimEnd text) = trim text := by
  by_cases nothing : trim text = []
  · rw [trimEnd_nothing text nothing, nothing]
    rfl
  · obtain ⟨lead, shape, _⟩ := trimEnd_lead text nothing
    rw [shape, trimStart_gap lead _ (trimmed_trim text).first]

/-- Up to the blanks at their ends, the lines are the pieces between line feeds. -/
theorem pieces_lines (text : Text) : (text.splitOn '\n').map trimEnd = (lines text).map trimEnd ∨
    (text.splitOn '\n').map trimEnd = (lines text).map trimEnd ++ [[]] := by
  induction text using lines.induct with
  | case1 => exact .inr rfl
  | case2 rest ih =>
      simpa [lines, List.splitOn_cons_eq_if_modifyHead] using ih
  | case3 rest ih =>
      have blank : trimEnd ['\r'] = trimEnd [] := by decide
      simpa [lines, List.splitOn_cons_eq_if_modifyHead, blank] using ih
  | case4 first rest notFeed notReturn nothing ih =>
      have apart : '\n' ∉ [first] := fun feed => notFeed (List.mem_singleton.mp feed).symm
      rw [lines_nil rest nothing, List.splitOn_eq_singleton apart]
      exact .inl (by simp [lines])
  | case5 first rest notFeed notReturn line others read ih =>
      obtain ⟨piece, pieces, split⟩ := List.exists_cons_of_ne_nil (List.splitOn_ne_nil '\n' rest)
      have here : trimEnd piece = trimEnd line → trimEnd (first :: piece) = trimEnd (first :: line) :=
        trimEnd_cons first piece line
      rw [split, read] at ih
      rw [lines, read, List.splitOn_cons_eq_if_modifyHead, split, if_neg (by simpa using notFeed)]
      · rcases ih with same | further
        · obtain ⟨atHead, behind⟩ := List.cons.inj same
          exact .inl (congrArg₂ List.cons (here atHead) behind)
        · obtain ⟨atHead, behind⟩ := List.cons.inj further
          exact .inr (congrArg₂ List.cons (here atHead) behind)
      · exact notFeed
      · exact notReturn

end Text

inductive LineInserted (line : Text) : Text → Text → Prop where
  | first (text : Text) : LineInserted line text (line ++ '\n' :: text)
  | between (front back : Text) :
      LineInserted line (front ++ '\n' :: back) (front ++ '\n' :: (line ++ '\n' :: back))
  | last (text : Text) : LineInserted line text (text ++ '\n' :: line)

theorem LineInserted.pieces {line text changed : Text} (inserted : LineInserted line text changed)
    (oneLine : '\n' ∉ line) :
    ∃ before behind, text.splitOn '\n' = before ++ behind ∧
      changed.splitOn '\n' = before ++ line :: behind := by
  cases inserted with
  | first => exact ⟨[], text.splitOn '\n', rfl, List.splitOn_append_cons_self_of_not_mem oneLine text⟩
  | between front back =>
      refine ⟨front.splitOn '\n', back.splitOn '\n', List.splitOn_append_cons_self front back, ?_⟩
      rw [List.splitOn_append_cons_self, List.splitOn_append_cons_self_of_not_mem oneLine]
  | last =>
      refine ⟨text.splitOn '\n', [], (List.append_nil _).symm, ?_⟩
      rw [List.splitOn_append_cons_self, List.splitOn_eq_singleton oneLine]

namespace Manual

/-- A line that documents nothing: blank, or a comment behind its blanks. -/
def IsRemark (line : Text) : Prop := Text.trim line = [] ∨ isComment (Text.trim line) = true

structure IsMember (line : Text) : Prop where
  word : Text.trim line ≠ []
  oneWord : ∀ c ∈ Text.trim line, isBlank c = false
  indented : ¬Stops isBlank line

theorem declarationLines_pieces (text : Text) : declarationLines text =
    ((text.splitOn '\n').map Text.trim).filter fun line => !line.isEmpty && !isComment line := by
  have trimmed (pieces : List Text) :
      pieces.map Text.trim = (pieces.map Text.trimEnd).map Text.trim := by
    simp [Text.trim_trimEnd]
  rw [declarationLines, trimmed, trimmed (text.splitOn '\n')]
  rcases Text.pieces_lines text with same | further
  · rw [same]
  · rw [further, List.map_append, List.filter_append]
    exact (List.append_nil _).symm

theorem declarationLines_inserted {line text changed : Text} (inserted : LineInserted line text changed)
    (oneLine : '\n' ∉ line) (remark : IsRemark line) :
    declarationLines changed = declarationLines text := by
  obtain ⟨before, behind, pieces, more⟩ := inserted.pieces oneLine
  have passed : (!(Text.trim line).isEmpty && !isComment (Text.trim line)) = false := by
    rcases remark with blank | comment
    · simp [blank]
    · simp [comment]
  rw [declarationLines_pieces, declarationLines_pieces, pieces, more]
  simp [passed]

theorem enumMembersIn_trimEnd (opened : Text) (lines : List Text) :
    enumMembersIn opened (lines.map Text.trimEnd) = enumMembersIn opened lines := by
  induction lines generalizing opened with
  | nil => rfl
  | cons line rest ih => simp only [List.map_cons, enumMembersIn, Text.trimEnd_trimEnd, ih]

theorem enumMembersIn_blank (opened : Text) (lines : List Text) :
    enumMembersIn opened (lines ++ [[]]) = enumMembersIn opened lines := by
  induction lines generalizing opened with
  | nil => rfl
  | cons line rest ih => simp only [List.cons_append, enumMembersIn, ih]

theorem enumMembers_pieces (text : Text) : enumMembers text = enumMembersIn [] (text.splitOn '\n') := by
  rw [enumMembers, ← enumMembersIn_trimEnd, ← enumMembersIn_trimEnd [] (text.splitOn '\n')]
  rcases Text.pieces_lines text with same | further
  · rw [same]
  · rw [further, enumMembersIn_blank]

/-- What is read behind some lines depends on them by the namespace that they leave open. -/
theorem enumMembersIn_append (opened : Text) (before : List Text) :
    ∃ left front, ∀ behind,
      enumMembersIn opened (before ++ behind) = front ++ enumMembersIn left behind := by
  induction before generalizing opened with
  | nil => exact ⟨opened, [], fun _ => rfl⟩
  | cons line rest ih =>
      simp only [List.cons_append, enumMembersIn]
      split
      · exact ih opened
      · split
        · exact ih _
        · obtain ⟨left, front, read⟩ := ih opened
          exact ⟨left, _ :: front, fun behind => by rw [read, List.cons_append]⟩

theorem isComment_head (line : Text) (comment : isComment line = true) : line.head? = some '-' := by
  rw [isComment, Option.isSome_iff_exists] at comment
  obtain ⟨rest, read⟩ := comment
  rw [Text.after?_some _ line rest read]
  rfl

theorem enumMembersIn_member (opened line : Text) (rest : List Text) (member : IsMember line) :
    enumMembersIn opened (line :: rest) = ⟨opened, Text.trim line⟩ :: enumMembersIn opened rest := by
  obtain ⟨lead, shape, front⟩ := Text.trimEnd_lead line member.word
  have indent : lead.text ≠ [] := mt front.mp member.indented
  obtain ⟨blank, others, blanks⟩ := List.exists_cons_of_ne_nil indent
  have notDash : isComment (Text.trimEnd line) ≠ true := by
    intro comment
    have head := isComment_head _ comment
    rw [shape, blanks] at head
    have dash := lead.blank blank (blanks ▸ List.mem_cons_self)
    rw [Option.some.inj head] at dash
    exact absurd dash (by decide)
  have oneWord : (Text.trim line).any isBlank = false := by
    simpa [List.any_eq_false] using member.oneWord
  have shorter : (Text.trim line).length ≠ (Text.trimEnd line).length := by
    rw [shape, List.length_append]
    have := List.length_pos_of_ne_nil indent
    omega
  have some_char : (Text.trimEnd line).isEmpty = false := by
    rw [shape, blanks]
    rfl
  simp only [enumMembersIn, Text.trimStart_trimEnd, oneWord, notDash, some_char, shorter, Bool.or_false,
    Bool.false_eq_true, if_false]

theorem enumMembersIn_remark (opened line : Text) (rest : List Text) (remark : IsRemark line)
    (noMember : ¬IsMember line) : enumMembersIn opened (line :: rest) = enumMembersIn opened rest := by
  by_cases blank : Text.trim line = []
  · simp [enumMembersIn, Text.trimEnd_nothing line blank]
  · obtain ⟨lead, shape, front⟩ := Text.trimEnd_lead line blank
    have comment : isComment (Text.trim line) = true := remark.resolve_left blank
    by_cases indented : Stops isBlank line
    · rw [front.mpr indented, List.nil_append] at shape
      simp [enumMembersIn, shape, comment]
    · have several : (Text.trim line).any isBlank = true := by
        by_contra oneWord
        refine noMember ⟨blank, fun c member => ?_, indented⟩
        simpa using fun isBlank => oneWord (List.any_eq_true.mpr ⟨c, member, isBlank⟩)
      simp [enumMembersIn, Text.trimStart_trimEnd, several]

/-- A remark changes nothing among the enum members, or it is one of them itself. -/
theorem enumMembers_inserted {line text changed : Text} (inserted : LineInserted line text changed)
    (oneLine : '\n' ∉ line) (remark : IsRemark line) :
    (¬IsMember line ∧ enumMembers changed = enumMembers text) ∨
      IsMember line ∧ ∃ opened front back, enumMembers text = front ++ back ∧
        enumMembers changed = front ++ ⟨opened, Text.trim line⟩ :: back := by
  obtain ⟨before, behind, pieces, more⟩ := inserted.pieces oneLine
  obtain ⟨left, front, read⟩ := enumMembersIn_append [] before
  rw [enumMembers_pieces, enumMembers_pieces, pieces, more, read, read]
  by_cases member : IsMember line
  · rw [enumMembersIn_member left line behind member]
    exact .inr ⟨member, left, front, _, rfl, rfl⟩
  · rw [enumMembersIn_remark left line behind remark member]
    exact .inl ⟨member, rfl⟩

end Manual

end ScriptSense
