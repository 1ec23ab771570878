import ScriptSense.Proofs.Attached
import ScriptSense.Proofs.Commas

/-!
Parameters of a list in which handles are attached. Reading a parameter attaches the handles of its
declaration anyway, so only those in the defaults make a difference. Blanks that a handle leaves
behind it at the end of a declaration are no part of it.
-/
namespace ScriptSense

namespace Text

theorem trim_append_gap (text : Text) (gap : Gap) : trim (text ++ gap.text) = trim text := by
  obtain ⟨lead, trail, split⟩ := trim_split text
  have blank : ∀ c ∈ trail.text ++ gap.text, isBlank c = true := fun c member =>
    (List.mem_append.mp member).elim (trail.blank c) (gap.blank c)
  have whole := trim_gaps lead (trim text) ⟨_, blank⟩ (trimmed_trim text)
  rw [← whole]
  conv_lhs => rw [split]
  simp only [List.append_assoc]

theorem trim_gap_append (gap : Gap) (text : Text) : trim (gap.text ++ text) = trim text := by
  rw [trim, trim, trimStart, List.dropWhile_append_of_pos gap.blank]
  rfl

/-- A character that is no blank keeps both sides apart. -/
theorem trim_stop (front back : Text) (stop : Char) (visible : isBlank stop = false) :
    trim (front ++ stop :: back) = trimStart front ++ stop :: trimEnd back := by
  rw [trim, trimStart, dropWhile_stop isBlank stop visible, trimEnd, dropEndWhile, List.reverse_append,
    List.reverse_cons, List.append_assoc, List.singleton_append, dropWhile_stop isBlank stop visible]
  simp [trimStart, trimEnd, dropEndWhile]

end Text

/-- Blanks at the end of a text stay blanks at its end. -/
theorem attachHandles_trail (text : Text) (trail : Gap) :
    ∃ gap : Gap, attachHandles (text ++ trail.text) = attachHandles text ++ gap.text := by
  have unmarked : '@' ∉ trail.text := fun member => absurd (trail.blank '@' member) (by decide)
  obtain ⟨later, split, _⟩ := attachHandles_append text trail.text (attached_unmarked _ unmarked)
  refine ⟨⟨later, fun c member => ?_⟩, split⟩
  have visible : later.filter (!isBlank ·) = [] := by
    have marks := attachHandles_marks (text ++ trail.text)
    have blank : trail.text.filter (!isBlank ·) = [] :=
      List.filter_eq_nil_iff.mpr fun c member => by simp [trail.blank c member]
    rw [split, List.filter_append, List.filter_append, attachHandles_marks, blank] at marks
    simpa using marks
  simpa using List.filter_eq_nil_iff.mp visible c member

theorem trim_attachHandles (text : Text) :
    Text.trim (attachHandles text) = Text.trim (attachHandles (Text.trim text)) := by
  obtain ⟨lead, trail, split⟩ := Text.trim_split text
  obtain ⟨gap, attached⟩ := attachHandles_trail (Text.trim text) trail
  conv_lhs => rw [split, attachHandles_gap, attached]
  rw [Text.trim_gap_append, Text.trim_append_gap]

/-- A handle at the end of a text may leave blanks behind it; another character leaves none. -/
theorem attachHandles_last (text : Text) (trimmed : text.Trimmed) :
    ∃ gap : Gap, attachHandles text = Text.trim (attachHandles text) ++ gap.text ∧
      (gap.text = [] ∨ ∃ front, Text.trim (attachHandles text) = front ++ ['@']) := by
  obtain ⟨gap, split⟩ := Text.trim_front _ (attachHandles_stops text trimmed.first)
  refine ⟨gap, split, ?_⟩
  rcases List.eq_nil_or_concat text with rfl | ⟨front, last, shape⟩
  · exact .inl (List.append_eq_nil_iff.mp split.symm).2
  rw [List.concat_eq_append] at shape
  subst shape
  have visible : isBlank last = false := trimmed.last last (by simp)
  have inline : isInlineBlank last = false := by simp [isInlineBlank, visible]
  by_cases handle : last = '@'
  · subst handle
    have marks := getLast?_marks (front ++ ['@']) '@' rfl (by simp)
    have blank : gap.text.filter (!isBlank ·) = [] :=
      List.filter_eq_nil_iff.mpr fun c member => by simp [gap.blank c member]
    rw [← attachHandles_marks, split, List.filter_append, blank, List.append_nil] at marks
    rcases List.eq_nil_or_concat (Text.trim (attachHandles (front ++ ['@']))) with empty | ⟨lead, mark, whole⟩
    · rw [empty] at marks
      cases marks
    · rw [List.concat_eq_append] at whole
      have trimmedEnd := (Text.trimmed_trim (attachHandles (front ++ ['@']))).last mark (by simp [whole])
      rw [whole, getLast?_marks _ mark trimmedEnd (by simp), Option.some.injEq] at marks
      exact .inr ⟨lead, by rw [whole, marks]⟩
  · refine .inl ?_
    have alone : attachHandles [last] = [last] := attachHandles_end last .none
    rw [attachHandles_stop last inline handle, alone] at split
    rcases List.eq_nil_or_concat gap.text with empty | ⟨lead, mark, whole⟩
    · exact empty
    · rw [List.concat_eq_append] at whole
      rw [whole, ← List.append_assoc] at split
      have same := (List.append_inj' split rfl).2
      have blank := gap.blank mark (by simp [whole])
      rw [← List.cons.inj same |>.1, visible] at blank
      cases blank

namespace Parameter

def ofDeclared? (declared : Text) (default : Option Text) : Option Parameter :=
  let (isConst, declared) := splitConst declared
  let (type, passing, name) := splitName declared
  if type.isEmpty || (!name.isEmpty && !Text.isIdentifier name) then none
  else some ⟨isConst, type, passing, name, default⟩

theorem parse?_declared (text declared assigned : Text)
    (split : text.span (· != '=') = (declared, assigned)) :
    parse? text = ofDeclared? (attachHandles (Text.trim declared)) (defaultOf assigned) := by
  rw [parse?, split]
  rfl

def attached (parameter : Parameter) : Parameter :=
  { parameter with default := parameter.default.map fun value => Text.trim (attachHandles value) }

theorem ofDeclared?_attached (declared : Text) (default : Option Text) :
    ofDeclared? declared (default.map fun value => Text.trim (attachHandles value)) =
      (ofDeclared? declared default).map attached := by
  simp only [ofDeclared?]
  split <;> rfl

/-- Blanks behind a handle do not change what is read in front of them. -/
theorem splitName_trail (front : Text) (gap : Gap) :
    splitName (front ++ '@' :: gap.text) = splitName (front ++ ['@']) := by
  have trim (lead : Text) (gap : Gap) : Text.trim (lead ++ '@' :: gap.text) = Text.trim (lead ++ ['@']) := by
    have alone := Text.trim_append_gap (lead ++ ['@']) gap
    rwa [List.append_assoc, List.singleton_append] at alone
  by_cases reference : '&' ∈ front
  · obtain ⟨lead, behind, rfl, apart⟩ := List.eq_append_cons_of_mem reference
    have start (rest : Text) : Text.trimStart (behind ++ '@' :: rest) =
        Text.trimStart behind ++ '@' :: rest := Text.dropWhile_stop isBlank '@' (by decide) behind rest
    have word (rest : Text) : Text.leadingWord (Text.trimStart behind ++ '@' :: rest) =
        Text.leadingWord (Text.trimStart behind) :=
      Text.takeWhile_stop isPlainChar '@' (by decide) _ rest
    have rest (rest : Text) : (Text.trimStart behind ++ '@' :: rest).dropWhile isPlainChar =
        (Text.trimStart behind).dropWhile isPlainChar ++ '@' :: rest :=
      Text.dropWhile_stop isPlainChar '@' (by decide) _ rest
    simp only [List.append_assoc, List.cons_append, splitName_reference lead _ apart, start, word, rest,
      trim]
  · have absent (gap : Gap) : '&' ∉ front ++ '@' :: gap.text := by
      rw [List.mem_append, List.mem_cons, not_or, not_or]
      exact ⟨reference, by decide, fun member => absurd (gap.blank '&' member) (by decide)⟩
    have unnamed (gap : Gap) : Text.isIdentifier
        (Text.takeEndWhile (!isBlank ·) (front ++ '@' :: gap.text)) = false := by
      rcases List.eq_nil_or_concat gap.text with empty | ⟨blanks, last, shape⟩
      · rw [empty]
        exact Text.not_identifier '@' (by decide) _ (Text.mem_takeEndWhile _ front '@' [] (by decide))
      · rw [List.concat_eq_append] at shape
        have blank := gap.blank last (by simp [shape])
        rw [shape, Text.takeEndWhile]
        simp [blank, Text.isIdentifier]
    have reading (gap : Gap) : splitName (front ++ '@' :: gap.text) =
        (Text.trim (front ++ ['@']), .byValue, []) := by
      rw [splitName_plain _ (absent gap)]
      dsimp only
      rw [unnamed gap, Bool.and_false, trim]
      rfl
    exact (reading gap).trans (reading .none).symm

theorem splitConst_handle (front : Text) :
    ∃ isConst lead, ∀ rest, splitConst (front ++ '@' :: rest) = (isConst, lead ++ '@' :: rest) := by
  by_cases qualified : ∃ more, front = "const".toList ++ more
  · obtain ⟨more, rfl⟩ := qualified
    have read (rest : Text) : Text.after? "const".toList ("const".toList ++ more ++ '@' :: rest) =
        some (more ++ '@' :: rest) := by
      rw [List.append_assoc, Text.after?_append]
    cases more with
    | nil => exact ⟨false, _, fun rest => by rw [splitConst, read]; rfl⟩
    | cons first more =>
        cases blank : isBlank first with
        | true =>
            refine ⟨true, Text.trimStart more, fun rest => ?_⟩
            have start : Text.trimStart (more ++ '@' :: rest) = Text.trimStart more ++ '@' :: rest :=
              Text.dropWhile_stop isBlank '@' (by decide) more rest
            rw [splitConst, read, List.cons_append]
            simp [blank, start]
        | false =>
            refine ⟨false, "const".toList ++ first :: more, fun rest => ?_⟩
            rw [splitConst, read, List.cons_append]
            simp [blank]
  · refine ⟨false, front, fun rest => splitConst_none _ ?_⟩
    cases read : Text.after? "const".toList (front ++ '@' :: rest) with
    | none => rfl
    | some behind =>
        obtain ⟨more, shape, _⟩ := Text.after?_apart '@' _ _ _ _ (by decide) read
        exact absurd ⟨more, shape⟩ qualified

theorem ofDeclared?_trail (front : Text) (gap : Gap) (default : Option Text) :
    ofDeclared? (front ++ '@' :: gap.text) default = ofDeclared? (front ++ ['@']) default := by
  obtain ⟨isConst, lead, split⟩ := splitConst_handle front
  rw [ofDeclared?, ofDeclared?, split, split]
  dsimp only
  rw [splitName_trail]

/-- The declaration is read with its handles attached, so they may be attached before. -/
theorem ofDeclared?_attachHandles (declared : Text) (default : Option Text) :
    ofDeclared? (attachHandles (Text.trim (attachHandles declared))) default =
      ofDeclared? (attachHandles (Text.trim declared)) default := by
  have attached : attachHandles (Text.trim (attachHandles declared)) =
      Text.trim (attachHandles declared) := (allAttached_attachHandles declared).trim.attached
  obtain ⟨gap, split, ends⟩ := attachHandles_last _ (Text.trimmed_trim declared)
  rw [attached, trim_attachHandles declared]
  conv_rhs => rw [split]
  rcases ends with empty | ⟨front, handle⟩
  · rw [empty, List.append_nil]
  · rw [handle, List.append_assoc, List.singleton_append, ofDeclared?_trail]

theorem attachHandles_blank (text : Text) :
    Text.trim (attachHandles text) = [] ↔ Text.trim text = [] := by
  rw [trim_attachHandles]
  cases body : Text.trim text with
  | nil => exact ⟨fun _ => rfl, fun _ => rfl⟩
  | cons first rest =>
      have stop := (Text.trimmed_trim text).first
      rw [body, stops_cons] at stop
      have kept := Text.mem_trim first stop _
        ((mem_attachHandles first stop (first :: rest)).mpr List.mem_cons_self)
      exact ⟨fun empty => absurd empty (List.ne_nil_of_mem kept), fun empty => absurd empty (List.cons_ne_nil _ _)⟩

theorem defaultOf_attachHandles (value : Text) (c : Char) :
    defaultOf (c :: Text.trimEnd (attachHandles value)) =
      (defaultOf (c :: value)).map fun value => Text.trim (attachHandles value) := by
  have trimmed : Text.trim (Text.trimEnd (attachHandles value)) = Text.trim (attachHandles value) := by
    obtain ⟨trail, split⟩ := Text.trimEnd_split (attachHandles value)
    conv_rhs => rw [split]
    rw [Text.trim_append_gap]
  simp only [defaultOf, trimmed, List.isEmpty_iff]
  by_cases empty : Text.trim value = []
  · rw [if_pos empty, if_pos ((attachHandles_blank value).mpr empty)]
    rfl
  · rw [if_neg empty, if_neg fun blank => empty ((attachHandles_blank value).mp blank)]
    rw [Option.map_some, ← trim_attachHandles]

/-- Attaching the handles of a piece attaches those of its default. -/
theorem parse?_attachHandles (piece : Text) :
    parse? (Text.trim (attachHandles piece)) = (parse? (Text.trim piece)).map attached := by
  rw [trim_attachHandles]
  generalize Text.trim piece = body
  by_cases assigned : '=' ∈ body
  · obtain ⟨declared, value, rfl, apart⟩ := List.eq_append_cons_of_mem assigned
    have source := parse?_declared _ _ _ (Text.span_first '=' declared value apart)
    have unassigned : '=' ∉ Text.trimStart (attachHandles declared) := fun member =>
      apart ((mem_attachHandles '=' rfl declared).mp ((List.dropWhile_suffix _).mem member))
    have target := parse?_declared _ _ _
      (Text.span_first '=' _ (Text.trimEnd (attachHandles value)) unassigned)
    have start : Text.trim (Text.trimStart (attachHandles declared)) =
        Text.trim (attachHandles declared) := by
      obtain ⟨lead, split⟩ := Text.trimStart_split (attachHandles declared)
      conv_rhs => rw [split]
      rw [Text.trim_gap_append]
    rw [attachHandles_apart '=' rfl (by decide) rfl, Text.trim_stop _ _ '=' rfl, target, source, start,
      ofDeclared?_attachHandles, defaultOf_attachHandles, ofDeclared?_attached]
  · have unassigned : '=' ∉ Text.trim (attachHandles body) := fun member =>
      assigned ((mem_attachHandles '=' rfl body).mp (Text.of_mem_trim _ _ member))
    have source := parse?_declared _ _ _ (Text.span_absent '=' body assigned)
    have target := parse?_declared _ _ _ (Text.span_absent '=' _ unassigned)
    rw [target, source, Text.trim_trimmed _ (Text.trimmed_trim _), ofDeclared?_attachHandles,
      ← ofDeclared?_attached]
    rfl

theorem named_attached (index : Nat) (parameter : Parameter) :
    parameter.attached.named index = (parameter.named index).attached := by
  have same : parameter.attached.hasName = parameter.hasName := rfl
  rw [named, named, same]
  split <;> rfl

end Parameter

theorem splitCommas_attachHandles (list : Text) :
    splitCommas 0 (attachHandles list) = (splitCommas 0 list).map attachHandles := by
  have pieces := splitCommas_pieces 0 list
  obtain ⟨piece, others, shape⟩ := List.exists_cons_of_ne_nil (splitCommas_some 0 list)
  have attached : Pieces 0 ((splitCommas 0 list).map attachHandles) := by
    have marks : listMarks ∘ attachHandles = listMarks := funext listMarks_attachHandles
    rw [pieces_marks] at pieces ⊢
    rwa [List.map_map, marks]
  have joined := attachHandles_join (splitCommas 0 list)
  rw [splitCommas_join] at joined
  rw [shape, List.map_cons] at attached joined ⊢
  rw [joined, splitCommas_intercalate 0 _ _ attached]

namespace Signature

def attached (signature : Signature) : Signature := ⟨signature.parameters.map Parameter.attached⟩

theorem parse_attachHandles (list : Text) : parse (attachHandles list) = (parse list).attached := by
  have pieces : (splitParameters (attachHandles list)).filterMap Parameter.parse? =
      ((splitParameters list).filterMap Parameter.parse?).map Parameter.attached := by
    simp only [splitParameters, splitCommas_attachHandles, List.filterMap_map, List.map_filterMap]
    refine List.filterMap_congr fun piece _ => ?_
    simp only [Function.comp_apply, Parameter.parse?_attachHandles]
  rw [parse, parse, attached, pieces]
  refine congrArg Signature.mk (List.ext_getElem (by simp) fun index _ _ => ?_)
  simp only [List.getElem_mapIdx, List.getElem_map, Parameter.named_attached]

/-- Attaching handles changes nothing exactly if those of the defaults are attached. -/
theorem attached_same (signature : Signature) :
    signature.attached = signature ↔ ∀ parameter ∈ signature.parameters,
      ∀ value, parameter.default = some value → Text.trim (attachHandles value) = value := by
  obtain ⟨parameters⟩ := signature
  have one (parameter : Parameter) : parameter.attached = parameter ↔
      ∀ value, parameter.default = some value → Text.trim (attachHandles value) = value := by
    obtain ⟨isConst, type, passing, name, default⟩ := parameter
    cases default <;> simp [Parameter.attached]
  rw [attached, Signature.mk.injEq, ← List.map_id parameters, List.map_map, List.map_inj_left]
  simp [one]

end Signature

end ScriptSense
