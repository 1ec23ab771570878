import ScriptSense.Proofs.Parameter

/-!
Parameter lists. A list splits at its commas into pieces that are blank or a parameter, and the
signature is read from the parameters.
-/
namespace ScriptSense

theorem splitCommas_some (depth : Nat) (text : Text) : splitCommas depth text ≠ [] := by
  cases text with
  | nil => simp [splitCommas]
  | cons first rest =>
      rw [splitCommas]
      split
      · simp
      · split
        · simp
        · simp

theorem splitCommas_join (depth : Nat) (text : Text) :
    [','].intercalate (splitCommas depth text) = text := by
  induction text generalizing depth with
  | nil => rfl
  | cons first rest ih =>
      rw [splitCommas]
      split
      · next comma =>
          obtain ⟨piece, pieces, shape⟩ := List.exists_cons_of_ne_nil (splitCommas_some 0 rest)
          have later := ih 0
          rw [shape] at later ⊢
          rw [List.intercalate_cons_cons, later, comma.1]
          rfl
      · have later := ih (depthAfter depth first)
        split
        · next empty => exact absurd empty (splitCommas_some _ rest)
        · next piece pieces shape =>
            rw [shape] at later
            cases pieces with
            | nil =>
                rw [List.intercalate_singleton] at later ⊢
                rw [later]
            | cons next pieces =>
                rw [List.intercalate_cons_cons] at later ⊢
                rw [← later]
                rfl

theorem attachHandles_join (pieces : List Text) :
    attachHandles ([','].intercalate pieces) = [','].intercalate (pieces.map attachHandles) := by
  induction pieces with
  | nil => rfl
  | cons piece pieces ih =>
      cases pieces with
      | nil => simp
      | cons next pieces =>
          have comma (rest : Text) : attachHandles (',' :: rest) = ',' :: attachHandles rest := by
            rw [attachHandles, if_neg (by decide)]
          rw [List.map_cons] at ih
          rw [List.map_cons, List.map_cons, List.intercalate_cons_cons, List.intercalate_cons_cons,
            ← ih, List.append_assoc, List.append_assoc, List.singleton_append, List.singleton_append,
            attachHandles_stop ',' (by decide) (by decide), comma]

inductive ListedText where
  | blank (gap : Gap)
  | parameter (lead : Gap) (form : ParameterText) (trail : Gap)

namespace ListedText

def text : ListedText → Text
  | blank gap => gap.text
  | parameter lead form trail => lead.text ++ (form.text ++ trail.text)

def forms : ListedText → List ParameterText
  | blank _ => []
  | parameter _ form _ => [form]

end ListedText

/-- The pieces of a list that are not blank are the parameters, once their handles are attached. -/
def WrittenList (list : Text) (forms : List ParameterText) : Prop :=
  ((splitParameters list).filter (!·.isEmpty)).map attachHandles = forms.map ParameterText.text

instance (list : Text) (forms : List ParameterText) : Decidable (WrittenList list forms) :=
  inferInstanceAs (Decidable (_ = _))

theorem pieces_listed (pieces : List Text) (forms : List ParameterText)
    (written : ((pieces.map Text.trim).filter (!·.isEmpty)).map attachHandles =
      forms.map ParameterText.text) :
    ∃ listed : List ListedText, pieces.map attachHandles = listed.map ListedText.text ∧
      listed.flatMap ListedText.forms = forms := by
  induction pieces generalizing forms with
  | nil =>
      cases forms with
      | nil => exact ⟨[], rfl, rfl⟩
      | cons form forms => cases written
  | cons piece pieces ih =>
      rw [List.map_cons] at written
      cases empty : (Text.trim piece).isEmpty with
      | true =>
          rw [List.filter_cons_of_neg (by simp [empty])] at written
          obtain ⟨listed, texts, same⟩ := ih forms written
          obtain ⟨lead, trail, split⟩ := Text.trim_split piece
          rw [List.isEmpty_iff.mp empty, List.nil_append] at split
          have blank : ∀ c ∈ piece, isBlank c = true := by
            intro c member
            rw [split, List.mem_append] at member
            rcases member with inLead | inTrail
            · exact lead.blank c inLead
            · exact trail.blank c inTrail
          have kept := attachHandles_gap ⟨piece, blank⟩ []
          rw [List.append_nil] at kept
          exact ⟨.blank ⟨piece, blank⟩ :: listed, by simp [texts, kept, attachHandles, ListedText.text],
            same⟩
      | false =>
          rw [List.filter_cons_of_pos (by simp [empty]), List.map_cons] at written
          cases forms with
          | nil => cases written
          | cons form forms =>
              rw [List.map_cons, List.cons.injEq] at written
              obtain ⟨listed, texts, same⟩ := ih forms written.2
              obtain ⟨last, ends, word⟩ := form.text_last
              obtain ⟨lead, trail, attached⟩ :=
                attachHandles_trim piece form.text last written.1 ends word
              exact ⟨.parameter lead form trail :: listed, by simp [texts, attached, ListedText.text],
                by simp [same, ListedText.forms]⟩

theorem mem_intercalate (separator : Char) (pieces : List Text) (c : Char)
    (member : c ∈ [separator].intercalate pieces) : c = separator ∨ ∃ piece ∈ pieces, c ∈ piece := by
  induction pieces with
  | nil => cases member
  | cons piece pieces ih =>
      cases pieces with
      | nil =>
          rw [List.intercalate_singleton] at member
          exact Or.inr ⟨piece, List.mem_singleton_self piece, member⟩
      | cons next pieces =>
          rw [List.intercalate_cons_cons, List.mem_append, List.mem_append, List.mem_singleton] at member
          rcases member with (inPiece | rfl) | later
          · exact Or.inr ⟨piece, List.mem_cons_self, inPiece⟩
          · exact Or.inl rfl
          · rcases ih later with same | ⟨other, listed, inOther⟩
            · exact Or.inl same
            · exact Or.inr ⟨other, List.mem_cons_of_mem piece listed, inOther⟩

theorem intercalate_mem (separator : Char) (pieces : List Text) (c : Char) (piece : Text)
    (listed : piece ∈ pieces) (member : c ∈ piece) : c ∈ [separator].intercalate pieces := by
  induction pieces with
  | nil => cases listed
  | cons first pieces ih =>
      cases pieces with
      | nil =>
          rw [List.mem_singleton] at listed
          rwa [List.intercalate_singleton, ← listed]
      | cons next pieces =>
          rw [List.intercalate_cons_cons]
          rcases List.mem_cons.mp listed with rfl | later
          · exact List.mem_append_left _ (List.mem_append_left _ member)
          · exact List.mem_append_right _ (ih later)

theorem ListedText.text_free (item : ListedText) (c : Char) (member : c ∈ item.text) :
    TypeSpelling.endsGeneric c = false := by
  have blank (gap : Gap) (inGap : c ∈ gap.text) := TypeSpelling.blank_generic c (gap.blank c inGap)
  cases item with
  | blank gap => exact blank gap member
  | parameter lead form trail =>
      rw [text, List.mem_append, List.mem_append] at member
      rcases member with inLead | inForm | inTrail
      · exact blank lead inLead
      · exact form.text_free c inForm
      · exact blank trail inTrail

theorem piece_trimmed (list piece : Text) (member : piece ∈ splitParameters list) :
    piece.Trimmed := by
  obtain ⟨raw, _, rfl⟩ := List.mem_map.mp member
  exact Text.trimmed_trim raw

namespace WrittenList

variable {list : Text} {forms : List ParameterText} (written : WrittenList list forms)
include written

theorem listed :
    ∃ listed : List ListedText,
      attachHandles list = [','].intercalate (listed.map ListedText.text) ∧
        listed.flatMap ListedText.forms = forms := by
  obtain ⟨listed, texts, same⟩ := pieces_listed (splitCommas 0 list) forms written
  refine ⟨listed, ?_, same⟩
  rw [← texts, ← attachHandles_join, splitCommas_join]

theorem free (c : Char) (member : c ∈ attachHandles list) : TypeSpelling.endsGeneric c = false := by
  obtain ⟨listed, texts, _⟩ := written.listed
  rw [texts] at member
  rcases mem_intercalate ',' _ c member with rfl | ⟨piece, inList, inPiece⟩
  · rfl
  · obtain ⟨item, _, rfl⟩ := List.mem_map.mp inList
    exact item.text_free c inPiece

/-- A parameter of the signature is read from one that is written in the list. -/
theorem parameter_read (parameter : Parameter)
    (member : parameter ∈ (Signature.parse list).parameters) :
    ∃ form ∈ forms, ∃ piece parsed index, piece.Trimmed ∧ attachHandles piece = form.text ∧
      Parameter.parse? piece = some parsed ∧ parameter = parsed.named index := by
  obtain ⟨index, bound, rfl⟩ := List.mem_mapIdx.mp member
  obtain ⟨piece, inList, parsed⟩ := List.mem_filterMap.mp (List.getElem_mem bound)
  have some_char : piece.isEmpty = false := by
    cases piece with
    | nil => cases parsed
    | cons first rest => rfl
  have attached : attachHandles piece ∈ forms.map ParameterText.text := by
    rw [← written]
    exact List.mem_map_of_mem (List.mem_filter.mpr ⟨inList, by simp [some_char]⟩)
  obtain ⟨form, inForms, same⟩ := List.mem_map.mp attached
  exact ⟨form, inForms, piece, _, index, piece_trimmed list piece inList, same.symm, parsed, rfl⟩

/-- Where a parameter of the list is read, the signature has it under some position. -/
theorem parsed (form : ParameterText) (inForms : form ∈ forms) :
    ∃ piece : Text, piece.Trimmed ∧ attachHandles piece = form.text ∧
      ∀ parameter, Parameter.parse? piece = some parameter →
        ∃ index, parameter.named index ∈ (Signature.parse list).parameters := by
  have listed : form.text ∈ forms.map ParameterText.text := List.mem_map_of_mem inForms
  rw [← written] at listed
  obtain ⟨piece, kept, attached⟩ := List.mem_map.mp listed
  have inList := (List.mem_filter.mp kept).1
  refine ⟨piece, piece_trimmed list piece inList, attached, fun parameter read => ?_⟩
  have parsed : parameter ∈ (splitParameters list).filterMap Parameter.parse? :=
    List.mem_filterMap.mpr ⟨piece, inList, read⟩
  obtain ⟨index, bound, rfl⟩ := List.getElem_of_mem parsed
  exact ⟨index, List.mem_mapIdx.mpr ⟨index, bound, rfl⟩⟩

end WrittenList

end ScriptSense
