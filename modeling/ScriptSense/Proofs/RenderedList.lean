import Mathlib.Data.Nat.Digits.Defs
import ScriptSense.Proofs.Rendering

/-!
Rendered signatures. A rendered signature splits into the labels of its parameters, so it is read as
the same signature if each label is read as its parameter. The parameters are all named: one without
a name got a placeholder, which is an identifier.
-/
namespace ScriptSense

theorem digit_name (c : Char) (digit : c.isDigit = true) : isNameChar c = true := by
  have ascii : c.toNat < 0x80 := by
    simp only [Char.isDigit, Bool.and_eq_true, decide_eq_true_eq] at digit
    have upper := UInt32.le_iff_toNat_le.mp digit.2
    exact Nat.lt_of_le_of_lt upper (by decide)
  simp [isNameChar, isAscii, ascii, Char.isAlphanum, digit]

namespace Parameter

theorem placeholder_identifier (index : Nat) : Text.isIdentifier (placeholder index) = true := by
  have letters : ∀ index < 26, Text.isIdentifier (placeholder index) = true := by decide
  by_cases letter : index < 26
  · exact letters index letter
  · rw [placeholder, if_neg letter, Text.isIdentifier, Bool.and_eq_true, List.all_eq_true]
    refine ⟨rfl, List.forall_mem_cons.mpr ⟨by decide, fun c member => ?_⟩⟩
    exact digit_name c (Nat.isDigit_of_mem_toDigits (by decide) (by decide) member)

theorem named_parts (index : Nat) (parameter : Parameter) (nameable : Nameable parameter.name) :
    Text.isIdentifier (parameter.named index).name = true ∧
      parameter.named index = { parameter with name := (parameter.named index).name } := by
  rw [named]
  split
  · next hasName =>
      refine ⟨nameable.resolve_left fun empty => ?_, rfl⟩
      simp [Parameter.hasName, empty] at hasName
  · exact ⟨placeholder_identifier index, rfl⟩

theorem named_again (index : Nat) (parameter : Parameter)
    (identifier : Text.isIdentifier parameter.name = true) : parameter.named index = parameter := by
  have hasName : parameter.hasName = true := by
    simp [Parameter.hasName, (Text.identifier_chars _ identifier).1]
  rw [named, if_pos hasName]

theorem named_marks (index : Nat) (parameter : Parameter) (nameable : Nameable parameter.name) :
    listMarks (parameter.named index).render = listMarks parameter.render := by
  obtain ⟨identifier, parts⟩ := named_parts index parameter nameable
  have type : (parameter.named index).type = parameter.type := parameter.named_type index
  have default : (parameter.named index).default = parameter.default := by rw [parts]
  rw [render_parts, render_parts, listMarks_append, listMarks_append,
    declaredText_marks _ (.inr identifier), declaredText_marks parameter nameable, type, default]

theorem Canonical.named_canonical {parameter : Parameter} (canonical : parameter.Canonical)
    (index : Nat) : (parameter.named index).Canonical := by
  obtain ⟨identifier, parts⟩ := named_parts index parameter canonical.nameable
  rw [parts]
  exact { canonical with nameable := .inr identifier }

theorem Canonical.render_trimmed {parameter : Parameter} (canonical : parameter.Canonical) :
    parameter.render.Trimmed := by
  have declared := canonical.declared_trimmed
  constructor
  · obtain ⟨first, rest, shape⟩ := List.exists_cons_of_ne_nil canonical.declared_some
    have stop := declared.first
    rw [render_parts, shape, List.cons_append, stops_cons]
    rwa [shape, stops_cons] at stop
  · rw [render_parts]
    cases default : parameter.default with
    | none =>
        rw [defaultText, List.append_nil]
        exact declared.last
    | some value =>
        obtain ⟨some_char, trimmed⟩ := canonical.default value default
        rw [defaultText, ← List.append_assoc, stops_reverse isBlank _ value some_char]
        exact trimmed.last

theorem render_oneLine (parameter : Parameter) (nameable : Nameable parameter.name)
    (type : '\n' ∉ parameter.type)
    (default : ∀ value, parameter.default = some value → '\n' ∉ value) : '\n' ∉ parameter.render := by
  have const : '\n' ∉ if parameter.isConst then "const ".toList else [] := by
    split <;> decide
  have mark : '\n' ∉ if parameter.passing = .byValue then [] else ' ' :: parameter.passing.mark := by
    cases parameter.passing <;> decide
  have name : '\n' ∉ if parameter.hasName then ' ' :: parameter.name else [] := by
    split
    · rw [List.mem_cons, not_or]
      exact ⟨by decide, fun member => absurd (nameable.chars _ member) (by decide)⟩
    · exact List.not_mem_nil
  have assigned : '\n' ∉ defaultText parameter.default := by
    cases some : parameter.default with
    | none => exact List.not_mem_nil
    | some value =>
        rw [defaultText, List.mem_append, not_or]
        exact ⟨by decide, default value some⟩
  simp only [render_parts, declaredText, List.mem_append, not_or]
  exact ⟨⟨⟨⟨const, type⟩, mark⟩, name⟩, assigned⟩

/-- Up to its first blank a rendered parameter is `const` or its type. -/
theorem Rendered.render_front {parameter : Parameter} (rendered : parameter.Rendered) :
    ∃ front rest, parameter.render = front ++ ' ' :: rest ∧
      ∀ c ∈ front, c ∈ "const ".toList ∨ c ∈ parameter.type := by
  obtain ⟨rest, spaced⟩ := behindType_spaced parameter (behindType_named parameter rendered.named)
  refine ⟨parameter.constText ++ parameter.type, rest ++ defaultText parameter.default, ?_, ?_⟩
  · rw [render_parts, declaredText_shape, spaced]
    simp only [List.append_assoc, List.cons_append]
  · intro c member
    rw [constText, List.mem_append] at member
    refine member.imp_left fun inConst => ?_
    split at inConst
    · exact inConst
    · cases inConst

end Parameter

theorem intercalate_front (separator front first : Text) (rest : List Text) :
    separator.intercalate ((front ++ first) :: rest) =
      front ++ separator.intercalate (first :: rest) := by
  cases rest with
  | nil => simp
  | cons next rest => simp [List.intercalate_cons_cons]

/-- The space behind a comma belongs to the piece that follows. -/
theorem join_spaced (first : Text) (rest : List Text) :
    ", ".toList.intercalate (first :: rest) =
      [','].intercalate (first :: rest.map ([' '] ++ ·)) := by
  have separator : ", ".toList = [','] ++ [' '] := rfl
  induction rest generalizing first with
  | nil => simp
  | cons next rest ih =>
      rw [List.map_cons, List.intercalate_cons_cons, List.intercalate_cons_cons, intercalate_front,
        ih next, separator]
      simp

namespace Signature

def Rendered (signature : Signature) : Prop := ∀ parameter ∈ signature.parameters, parameter.Rendered

/-- Every parameter of a signature that was read has a name. -/
theorem parse_parameters (list : Text) (parameter : Parameter)
    (member : parameter ∈ (parse list).parameters) :
    parameter.Canonical ∧ Text.isIdentifier parameter.name = true := by
  obtain ⟨index, inside, rfl⟩ := List.mem_mapIdx.mp member
  obtain ⟨piece, _, read⟩ := List.mem_filterMap.mp (List.getElem_mem inside)
  have canonical := Parameter.parse?_canonical piece _ read
  exact ⟨canonical.named_canonical index, (Parameter.named_parts index _ canonical.nameable).1⟩

theorem parse_rendered (list : Text)
    (proper : ∀ parameter ∈ (parse list).parameters,
      parameter.type ≠ "const".toList ∧ parameter.type.head? ≠ some '@') :
    (parse list).Rendered := by
  intro parameter member
  obtain ⟨notConst, notHandle⟩ := proper parameter member
  obtain ⟨canonical, named⟩ := parse_parameters list parameter member
  exact { canonical with named := named, notConst := notConst, notHandle := notHandle }

theorem labels_pieces (list : Text) : Pieces 0 (parse list).labels := by
  let read (piece : Text) : Option Text := (Parameter.parse? (Text.trim piece)).map Parameter.render
  have same (piece label : Text) (found : read piece = some label) :
      listMarks label = listMarks piece := by
    obtain ⟨parameter, parsed, rfl⟩ := Option.map_eq_some_iff.mp found
    rw [Parameter.render_marks _ _ parsed, listMarks_trim]
  have kept := Pieces.filterMap read same _ (splitCommas_pieces 0 list)
  have labels : (splitCommas 0 list).filterMap read =
      ((splitParameters list).filterMap Parameter.parse?).map Parameter.render := by
    simp only [read, splitParameters, List.filterMap_map, List.map_filterMap, Function.comp_def]
  rw [pieces_marks, labels] at kept
  rw [pieces_marks, Signature.labels, parse]
  convert kept using 1
  refine List.ext_getElem (by simp) fun index inside _ => ?_
  obtain ⟨piece, _, parsed⟩ := List.mem_filterMap.mp (List.getElem_mem (by simpa using inside))
  have marks := Parameter.named_marks index _ (Parameter.parse?_canonical piece _ parsed).nameable
  simpa using marks

/-- A rendered signature is split into the labels of its parameters. -/
theorem splitParameters_render (list : Text) :
    (splitParameters (parse list).render).filterMap Parameter.parse? =
      (parse list).labels.filterMap Parameter.parse? := by
  have pieces := labels_pieces list
  have trimmed : ∀ label ∈ (parse list).labels, label.Trimmed := by
    intro label member
    obtain ⟨parameter, inside, rfl⟩ := List.mem_map.mp member
    exact (parse_parameters list parameter inside).1.render_trimmed
  rw [render]
  cases shape : (parse list).labels with
  | nil => rfl
  | cons first rest =>
      rw [shape] at pieces trimmed
      have spaced : Pieces 0 (first :: rest.map ([' '] ++ ·)) := by
        have marks : listMarks ∘ ([' '] ++ ·) = listMarks := rfl
        rw [pieces_marks] at pieces ⊢
        rwa [List.map_cons, List.map_map, marks]
      have whole : splitParameters (", ".toList.intercalate (first :: rest)) = first :: rest := by
        rw [splitParameters, join_spaced, splitCommas_intercalate 0 _ _ spaced, List.map_cons,
          List.map_map, Text.trim_trimmed first (trimmed first List.mem_cons_self)]
        refine congrArg (first :: ·) ((List.map_congr_left fun label inside => ?_).trans (List.map_id _))
        have alone := trimmed label (List.mem_cons_of_mem first inside)
        simpa [Gap.one, Gap.none] using Text.trim_gaps .one label .none alone
      rw [whole]

theorem parse_render (list : Text)
    (legible : ∀ parameter ∈ (parse list).parameters,
      Parameter.parse? parameter.render = some parameter) :
    parse (parse list).render = parse list := by
  have reread : (parse list).labels.filterMap Parameter.parse? = (parse list).parameters := by
    have read : ∀ parameter ∈ (parse list).parameters,
        (Parameter.parse? ∘ Parameter.render) parameter = some parameter := fun parameter member => by
      rw [Function.comp_apply, legible parameter member]
    rw [labels, List.filterMap_map, List.filterMap_congr read, List.filterMap_some]
  have named : (parse list).parameters.mapIdx Parameter.named = (parse list).parameters := by
    refine List.ext_getElem (by simp) fun index _ inside => ?_
    rw [List.getElem_mapIdx]
    exact Parameter.named_again index _ (parse_parameters list _ (List.getElem_mem inside)).2
  rw [parse, splitParameters_render, reread, named]

theorem render_oneLine (list : Text) (oneLine : '\n' ∉ list) : '\n' ∉ (parse list).render := by
  have labels : ∀ label ∈ (parse list).labels, '\n' ∉ label := by
    intro label member
    obtain ⟨parameter, listed, rfl⟩ := List.mem_map.mp member
    obtain ⟨index, inside, rfl⟩ := List.mem_mapIdx.mp listed
    obtain ⟨piece, inPieces, read⟩ := List.mem_filterMap.mp (List.getElem_mem inside)
    obtain ⟨raw, inList, rfl⟩ := List.mem_map.mp inPieces
    have rawLine : '\n' ∉ raw := by
      intro inRaw
      rw [← splitCommas_join 0 list] at oneLine
      exact oneLine (intercalate_mem ',' _ _ raw inList inRaw)
    have nameable := (Parameter.parse?_canonical _ _ read).nameable
    obtain ⟨identifier, parts⟩ := Parameter.named_parts index _ nameable
    obtain ⟨type, default⟩ := Parameter.parse?_oneLine _ _ read fun inPiece =>
      rawLine (Text.of_mem_trim _ _ inPiece)
    rw [parts]
    exact Parameter.render_oneLine _ (.inr identifier) type default
  intro member
  cases shape : (parse list).labels with
  | nil =>
      rw [render, shape] at member
      cases member
  | cons first rest =>
      rw [render, shape, join_spaced] at member
      rw [shape, List.forall_mem_cons] at labels
      rcases mem_intercalate _ _ _ member with comma | ⟨piece, inPieces, inPiece⟩
      · cases comma
      · rcases List.mem_cons.mp inPieces with rfl | later
        · exact labels.1 inPiece
        · obtain ⟨label, listed, rfl⟩ := List.mem_map.mp later
          rcases List.mem_append.mp inPiece with space | inLabel
          · exact absurd space (by decide)
          · exact labels.2 label listed inLabel

/-- Up to its first blank a rendered signature is `const` or the type of its first parameter. -/
theorem Rendered.render_head {signature : Signature} (rendered : signature.Rendered) (c : Char)
    (apart : c ∉ "const ".toList) (types : ∀ parameter ∈ signature.parameters, c ∉ parameter.type)
    (rest : Text) (behind : c ∉ rest) : c ∉ (signature.render ++ rest).takeWhile (!isBlank ·) := by
  cases shape : signature.parameters with
  | nil =>
      rw [render, labels, shape]
      exact fun member => behind ((List.takeWhile_prefix _).mem member)
  | cons first others =>
      have listed : first ∈ signature.parameters := shape ▸ List.mem_cons_self
      obtain ⟨front, more, label, chars⟩ := (rendered first listed).render_front
      have spaced : signature.render = front ++
          (' ' :: ", ".toList.intercalate (more :: others.map Parameter.render)) := by
        rw [render, labels, shape, List.map_cons, label, intercalate_front]
        exact congrArg (front ++ ·) (intercalate_front _ [' '] more _)
      rw [spaced, List.append_assoc, List.cons_append, Text.takeWhile_stop _ ' ' (by decide)]
      intro member
      rcases chars c ((List.takeWhile_prefix _).mem member) with inConst | inType
      · exact apart inConst
      · exact types first listed inType

end Signature

end ScriptSense
