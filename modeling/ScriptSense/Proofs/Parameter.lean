import ScriptSense.Proofs.Found
import ScriptSense.Proofs.Handle
import ScriptSense.Signature

/-!
Reading a parameter undoes writing it: `[const] type [&in | &out | &inout | &] name` with any blanks
between its parts. The type is a word with its marks, or an array with nearly anything inside. A name
that touches its type is read as a part of it, and an array with a `&` inside declares nothing.
-/
namespace ScriptSense

inductive TypeText where
  | word (name : Word) (elementHandles pairs handles : Nat)
  | array (inside : Text) (free : ∀ c ∈ inside, TypeSpelling.endsGeneric c = false) (handles : Nat)

namespace TypeText

def text : TypeText → Text
  | word name elementHandles pairs handles =>
      name.text ++ TypeForm.decoration elementHandles pairs handles
  | array inside _ handles => arrayName ++ '<' :: (inside ++ '>' :: TypeForm.handleMarks handles)

def isBare : TypeText → Bool
  | word _ 0 0 0 => true
  | _ => false

def inside : TypeText → Text
  | word _ _ _ _ => []
  | array inside _ _ => inside

theorem inside_free (type : TypeText) :
    ∀ c ∈ type.inside, TypeSpelling.endsGeneric c = false := by
  cases type with
  | word name elementHandles pairs handles => simp [inside]
  | array inside free handles => exact free

theorem text_chars (type : TypeText) (c : Char) (member : c ∈ type.text) :
    isWordChar c = true ∨ c ∈ ['@', '[', ']', '<', '>'] ∨ c ∈ type.inside := by
  cases type with
  | word name elementHandles pairs handles =>
      have spelled := (TypeForm.word name elementHandles pairs handles).text_chars c member
      rcases spelled with word | mark
      · exact Or.inl word
      · exact Or.inr (Or.inl mark)
  | array inside free handles =>
      simp only [text, List.mem_append, List.mem_cons] at member
      rcases member with inName | rfl | inInside | rfl | inMarks
      · exact Or.inl (TypeSpelling.array_word c inName)
      · simp
      · exact Or.inr (Or.inr inInside)
      · simp
      · simp [List.eq_of_mem_replicate inMarks]

theorem text_free (type : TypeText) (c : Char) (member : c ∈ type.text) :
    TypeSpelling.endsGeneric c = false := by
  rcases type.text_chars c member with word | mark | inInside
  · exact TypeSpelling.generic_char c (Or.inl word)
  · exact TypeSpelling.generic_char c (Or.inr mark)
  · exact type.inside_free c inInside

theorem text_head (type : TypeText) :
    ∃ first rest, type.text = first :: rest ∧ isWordChar first = true := by
  cases type with
  | word name elementHandles pairs handles =>
      exact (TypeForm.word name elementHandles pairs handles).text_head
  | array inside free handles => exact ⟨'a', _, rfl, by decide⟩

theorem pairMarks_last (pairs : Nat) :
    ∃ front, TypeForm.pairMarks (pairs + 1) = front ++ [']'] := by
  induction pairs with
  | zero => exact ⟨['['], rfl⟩
  | succ pairs ih =>
      obtain ⟨front, shape⟩ := ih
      exact ⟨'[' :: ']' :: front, by rw [TypeForm.pairMarks, shape]; rfl⟩

theorem handleMarks_last (handles : Nat) :
    ∃ front, TypeForm.handleMarks (handles + 1) = front ++ ['@'] :=
  ⟨TypeForm.handleMarks handles, List.replicate_succ'⟩

/-- A type is a word alone, or it ends in a mark. -/
theorem text_last (type : TypeText) :
    (type.isBare = true ∧ ∀ c ∈ type.text, isWordChar c = true) ∨
      TypeSpelling.EndsInMark type.text := by
  cases type with
  | word name elementHandles pairs handles =>
      cases handles with
      | succ handles =>
          obtain ⟨front, shape⟩ := handleMarks_last handles
          refine Or.inr ⟨name.text ++ (TypeForm.handleMarks elementHandles ++
            (TypeForm.pairMarks pairs ++ front)), '@', ?_, by decide⟩
          simp [text, TypeForm.decoration, shape]
      | zero =>
          cases pairs with
          | succ pairs =>
              obtain ⟨front, shape⟩ := pairMarks_last pairs
              refine Or.inr ⟨name.text ++ (TypeForm.handleMarks elementHandles ++ front), ']', ?_,
                by decide⟩
              simp [text, TypeForm.decoration, TypeForm.handleMarks, shape]
          | zero =>
              cases elementHandles with
              | succ elementHandles =>
                  obtain ⟨front, shape⟩ := handleMarks_last elementHandles
                  refine Or.inr ⟨name.text ++ front, '@', ?_, by decide⟩
                  have noHandle : TypeForm.handleMarks 0 = [] := rfl
                  simp [text, TypeForm.decoration, TypeForm.pairMarks, shape, noHandle]
              | zero =>
                  refine Or.inl ⟨rfl, fun c member => name.chars c ?_⟩
                  simpa [text, TypeForm.decoration, TypeForm.pairMarks, TypeForm.handleMarks] using
                    member
  | array inside free handles =>
      cases handles with
      | succ handles =>
          obtain ⟨front, shape⟩ := handleMarks_last handles
          refine Or.inr ⟨arrayName ++ '<' :: (inside ++ '>' :: front), '@', ?_, by decide⟩
          simp [text, shape]
      | zero =>
          refine Or.inr ⟨arrayName ++ '<' :: inside, '>', ?_, by decide⟩
          simp [text, TypeForm.handleMarks]

theorem trimmed (type : TypeText) : type.text.Trimmed where
  first := by
    obtain ⟨first, rest, shape, char⟩ := type.text_head
    rw [shape, stops_cons]
    exact word_not_blank first char
  last := by
    intro c head
    rw [List.head?_reverse] at head
    rcases type.text_last with ⟨_, chars⟩ | ⟨front, last, shape, mark⟩
    · exact word_not_blank c (chars c (List.mem_of_getLast? head))
    · rw [shape, List.getLast?_concat, Option.some.injEq] at head
      subst head
      exact (by decide : ∀ c ∈ ['@', ']', '>'], isBlank c = false) last mark

end TypeText

inductive ReferenceText where
  | marked (reference : Reference)
  | bare (trail : Gap)

namespace ReferenceText

def text : ReferenceText → Text
  | marked reference => reference.text
  | bare trail => '&' :: trail.text

def passing : ReferenceText → Passing
  | marked .none => .byValue
  | marked (.mode _ word _ _) => (Passing.ofWord? word).getD .byValue
  | bare _ => .inputOutput

theorem text_chars (reference : ReferenceText) (c : Char) (member : c ∈ reference.text) :
    isWordChar c = true ∨ isBlank c = true ∨ c = '&' := by
  cases reference with
  | marked reference => exact reference.text_chars c member
  | bare trail =>
      rcases List.mem_cons.mp member with mark | inTrail
      · exact Or.inr (Or.inr mark)
      · exact Or.inr (Or.inl (trail.blank c inTrail))

end ReferenceText

/-- A parameter as a script writes it. A name behind a bare `&` does not begin with the word of
another mark. -/
structure ParameterText where
  constant : Option Break
  type : TypeText
  gap : Gap
  reference : ReferenceText
  name : Word
  identifier : ∀ c ∈ name.text, isNameChar c = true := by decide
  apart : type.isBare = true → gap.text = [] → reference.text ≠ [] := by decide
  proper : type.text ≠ "const".toList := by decide
  unmarked : ∀ trail, reference = .bare trail → Text.leadingWord name.text ∉ referenceModes

namespace ParameterText

def behind (form : ParameterText) : Text :=
  form.gap.text ++ (form.reference.text ++ form.name.text)

def text (form : ParameterText) : Text :=
  constText form.constant ++ (form.type.text ++ form.behind)

def declaration (form : ParameterText) : Declaration := ⟨form.type.text, form.name.text⟩

def parameter (form : ParameterText) : Parameter :=
  ⟨form.constant.isSome, form.type.text, form.reference.passing, form.name.text, none⟩

end ParameterText

theorem Word.trimmed (word : Word) : word.text.Trimmed :=
  Text.trimmed_visible word.text fun c member => word_not_blank c (word.chars c member)

theorem Word.last (word : Word) :
    ∃ last, word.text.getLast? = some last ∧ isWordChar last = true :=
  ⟨_, List.getLast?_eq_some_getLast word.some_char, word.chars _ (List.getLast_mem _)⟩

theorem Text.not_identifier (c : Char) (notName : isNameChar c = false) (text : Text)
    (member : c ∈ text) : isIdentifier text = false := by
  rw [isIdentifier, Bool.and_eq_false_iff]
  refine Or.inr (List.all_eq_false.mpr ⟨c, member, ?_⟩)
  simp [notName]

namespace Parameter

theorem splitConst_none (declared : Text)
    (noConst : (Text.after? "const".toList declared).bind (Text.afterSome? isBlank) = none) :
    splitConst declared = (false, declared) := by
  rw [splitConst]
  split
  · next first rest read =>
      rw [read, Option.bind_some, Text.afterSome?] at noConst
      cases blank : isBlank first with
      | false => rfl
      | true => simp [blank] at noConst
  · rfl

theorem splitConst_const (gap : Break) (rest : Text) (stop : Stops isBlank rest) :
    splitConst ("const".toList ++ (gap.text ++ rest)) = (true, rest) := by
  obtain ⟨first, blanks, shape⟩ := List.exists_cons_of_ne_nil gap.some_blank
  have blank := gap.blank
  rw [shape] at blank
  have trimmed : Text.trimStart (blanks ++ rest) = rest :=
    Text.dropWhile_run isBlank blanks rest (fun c member => blank c (List.mem_cons_of_mem _ member))
      stop
  rw [splitConst, Text.after?_append, shape, List.cons_append]
  simp [blank first List.mem_cons_self, trimmed]

theorem splitName_reference (front behind : Text) (noReference : '&' ∉ front) :
    splitName (front ++ '&' :: behind) =
      match Passing.ofWord? (Text.leadingWord (Text.trimStart behind)) with
      | some passing => (Text.trim front, passing,
          Text.trim ((Text.trimStart behind).dropWhile isPlainChar))
      | none => (Text.trim front, .inputOutput, Text.trim (Text.trimStart behind)) := by
  simp only [splitName, Text.span_first '&' front behind noReference, List.span_eq_takeWhile_dropWhile]
  rfl

theorem splitName_plain (declared : Text) (noReference : '&' ∉ declared) :
    splitName declared =
      let last := Text.takeEndWhile (!isBlank ·) declared
      let front := Text.dropEndWhile (!isBlank ·) declared
      if !front.isEmpty && Text.isIdentifier last then (Text.trim front, .byValue, last)
      else (Text.trim declared, .byValue, []) := by
  simp only [splitName, Text.span_absent '&' declared noReference]

end Parameter

theorem blank_not_reference (gap : Gap) : '&' ∉ gap.text := fun member =>
  absurd (gap.blank '&' member) (by decide)

theorem word_not_reference (word : Word) : '&' ∉ word.text := fun member =>
  absurd (word.chars '&' member) (by decide)

theorem TypeText.not_reference (type : TypeText) (plain : '&' ∉ type.inside) : '&' ∉ type.text := by
  intro member
  rcases type.text_chars '&' member with word | mark | inInside
  · exact absurd word (by decide)
  · exact absurd mark (by decide)
  · exact plain inInside

theorem mode_passing (word : Text) (listed : word ∈ referenceModes) :
    (∃ passing, Passing.ofWord? word = some passing) ∧ ∀ c ∈ word, isPlainChar c = true := by
  have modes : ∀ word ∈ referenceModes, (Passing.ofWord? word).isSome = true ∧
      ∀ c ∈ word, isPlainChar c = true := by decide
  exact ⟨Option.isSome_iff_exists.mp (modes word listed).1, (modes word listed).2⟩

theorem ofWord?_unmarked (word : Text) (unlisted : word ∉ referenceModes) :
    Passing.ofWord? word = none ∨ word = [] ∧ Passing.ofWord? word = some .inputOutput := by
  simp only [referenceModes, List.map_cons, List.map_nil, List.mem_cons, List.not_mem_nil, or_false,
    not_or] at unlisted
  by_cases empty : word = []
  · exact Or.inr ⟨empty, by rw [Passing.ofWord?, if_pos (Or.inl empty)]⟩
  · have inout : ¬ (word = [] ∨ word = "inout".toList) := not_or.mpr ⟨empty, unlisted.2.2⟩
    exact Or.inl (by rw [Passing.ofWord?, if_neg inout, if_neg unlisted.1, if_neg unlisted.2.1])

namespace ParameterText

variable (form : ParameterText)

/-- The type is trimmed, so the blanks behind it do not matter. -/
theorem trim_type : Text.trim (form.type.text ++ form.gap.text) = form.type.text :=
  Text.trim_gaps .none form.type.text form.gap form.type.trimmed

theorem trim_name (gap : Gap) : Text.trim (gap.text ++ form.name.text) = form.name.text := by
  have trimmed := Text.trim_gaps gap form.name.text .none form.name.trimmed
  rwa [Gap.none, List.append_nil] at trimmed

theorem identifies : Text.isIdentifier form.name.text = true := by
  rw [Text.isIdentifier, Bool.and_eq_true, Bool.not_eq_true', List.isEmpty_eq_false_iff,
    List.all_eq_true]
  exact ⟨form.name.some_char, form.identifier⟩

section Plain

variable (plain : '&' ∉ form.type.inside)
include plain

theorem front_plain : '&' ∉ form.type.text ++ form.gap.text := by
  rw [List.mem_append, not_or]
  exact ⟨form.type.not_reference plain, blank_not_reference form.gap⟩

theorem splitName_value (value : form.reference = .marked .none) (spaced : form.gap.text ≠ []) :
    Parameter.splitName (form.type.text ++ form.behind) =
      (form.type.text, form.reference.passing, form.name.text) := by
  have shape : form.type.text ++ form.behind =
      (form.type.text ++ form.gap.text) ++ form.name.text := by
    simp [behind, value, ReferenceText.text, Reference.text]
  have noReference : '&' ∉ (form.type.text ++ form.gap.text) ++ form.name.text := by
    rw [List.mem_append, not_or]
    exact ⟨form.front_plain plain, word_not_reference form.name⟩
  have kept : ∀ c ∈ form.name.text, (!isBlank c) = true := by
    intro c member
    rw [word_not_blank c (form.name.chars c member)]
    rfl
  have stop : Stops (!isBlank ·) (form.type.text ++ form.gap.text).reverse := by
    obtain ⟨blank, blanks, split⟩ := List.exists_cons_of_ne_nil (List.reverse_ne_nil_iff.mpr spaced)
    have member : blank ∈ form.gap.text := List.mem_reverse.mp (by simp [split])
    rw [List.reverse_append, split, List.cons_append, stops_cons, form.gap.blank blank member]
    rfl
  have some_front : (form.type.text ++ form.gap.text).isEmpty = false := by
    rw [List.isEmpty_eq_false_iff]
    exact List.append_ne_nil_of_right_ne_nil _ spaced
  rw [shape, Parameter.splitName_plain _ noReference]
  simp only [Text.takeEndWhile_run _ _ _ kept stop, Text.dropEndWhile_run _ _ _ kept stop]
  simp [some_front, form.identifies, form.trim_type, value, ReferenceText.passing]

theorem splitName_mode (lead : Gap) (word : Text) (listed : word ∈ referenceModes) (trail : Break)
    (marked : form.reference = .marked (.mode lead word listed trail)) :
    Parameter.splitName (form.type.text ++ form.behind) =
      (form.type.text, form.reference.passing, form.name.text) := by
  obtain ⟨some_char, chars⟩ := Declaration.mode_chars word listed
  obtain ⟨⟨passing, read⟩, plainWord⟩ := mode_passing word listed
  let modeWord : Word := ⟨word, some_char, chars⟩
  have shape : form.type.text ++ form.behind = (form.type.text ++ form.gap.text) ++
      '&' :: (lead.text ++ (word ++ (trail.text ++ form.name.text))) := by
    simp [behind, marked, ReferenceText.text, Reference.text]
  have leadTrimmed : Text.trimStart (lead.text ++ (word ++ (trail.text ++ form.name.text))) =
      word ++ (trail.text ++ form.name.text) :=
    Text.trimStart_gap lead _ (modeWord.stops isBlank word_not_blank _)
  have stop := trail.stops isPlainChar blank_not_plain form.name.text
  have leading : Text.leadingWord (word ++ (trail.text ++ form.name.text)) = word :=
    Text.takeWhile_run isPlainChar word _ plainWord stop
  rw [shape, Parameter.splitName_reference _ _ (form.front_plain plain), leadTrimmed, leading, read]
  dsimp only
  rw [Text.dropWhile_run isPlainChar word _ plainWord stop, form.trim_name, form.trim_type, marked,
    ReferenceText.passing, read, Option.getD_some]

theorem splitName_bare (trail : Gap) (bare : form.reference = .bare trail) :
    Parameter.splitName (form.type.text ++ form.behind) =
      (form.type.text, form.reference.passing, form.name.text) := by
  have shape : form.type.text ++ form.behind =
      (form.type.text ++ form.gap.text) ++ '&' :: (trail.text ++ form.name.text) := by
    simp [behind, bare, ReferenceText.text]
  have trimmed : Text.trimStart (trail.text ++ form.name.text) = form.name.text :=
    Text.trimStart_gap trail _ form.name.trimmed.first
  have named := Text.trim_trimmed form.name.text form.name.trimmed
  have passing : form.reference.passing = .inputOutput := by rw [bare, ReferenceText.passing]
  rw [shape, Parameter.splitName_reference _ _ (form.front_plain plain), trimmed, form.trim_type,
    passing]
  rcases ofWord?_unmarked _ (form.unmarked trail bare) with unread | ⟨empty, read⟩
  · rw [unread]
    simp only [named]
  · have kept : form.name.text.dropWhile isPlainChar = form.name.text := by
      have parts := List.takeWhile_append_dropWhile (p := isPlainChar) (l := form.name.text)
      rwa [← Text.leadingWord, empty] at parts
    rw [read]
    simp only [kept, named]

end Plain

theorem splitName_written (spaced : form.reference = .marked .none → form.gap.text ≠ [])
    (plain : '&' ∉ form.type.inside) :
    Parameter.splitName (form.type.text ++ form.behind) =
      (form.type.text, form.reference.passing, form.name.text) := by
  cases reference : form.reference with
  | bare trail =>
      rw [← reference]
      exact form.splitName_bare plain trail reference
  | marked mark =>
      rw [← reference]
      cases mark with
      | none => exact form.splitName_value plain reference (spaced reference)
      | mode lead word listed trail =>
          exact form.splitName_mode plain lead word listed trail reference

theorem behind_head (rest : Text) (c : Char) (head : (form.behind ++ rest).head? = some c) :
    isBlank c = true ∨ c = '&' ∨
      isWordChar c = true ∧ form.gap.text = [] ∧ form.reference.text = [] := by
  cases reference : form.reference with
  | marked mark =>
      rw [behind, reference] at head
      exact NamePart.text_head ⟨form.gap, mark, form.name⟩ rest c head
  | bare trail =>
      rw [behind, reference, ReferenceText.text, List.append_assoc] at head
      cases gap : form.gap.text with
      | nil =>
          rw [gap, List.nil_append, List.cons_append, List.cons_append, List.head?_cons,
            Option.some.injEq] at head
          exact Or.inr (Or.inl head.symm)
      | cons blank blanks =>
          rw [gap, List.cons_append, List.head?_cons, Option.some.injEq] at head
          subst head
          exact Or.inl (form.gap.blank blank (by simp [gap]))

theorem stops_blank (rest : Text) : Stops isBlank (form.type.text ++ rest) := by
  obtain ⟨first, later, shape, char⟩ := form.type.text_head
  rw [shape, List.cons_append, stops_cons]
  exact word_not_blank first char

theorem follows_word (name : Word) (elementHandles pairs handles : Nat)
    (type : form.type = .word name elementHandles pairs handles) (rest : Text) :
    FollowsType (.word name elementHandles pairs handles) (form.behind ++ rest) := by
  have bare : (TypeForm.word name elementHandles pairs handles).isBare = form.type.isBare := by
    rw [type]
    cases elementHandles <;> cases pairs <;> cases handles <;> rfl
  apply followsType_of_head
  intro c head
  rcases form.behind_head rest c head with blank | reference | ⟨word, gap, reference⟩
  · exact Or.inl blank
  · exact Or.inr (Or.inl reference)
  · refine Or.inr (Or.inr ⟨word, ?_⟩)
    rw [bare]
    cases alone : form.type.isBare with
    | false => rfl
    | true => exact absurd reference (form.apart alone gap)

theorem noConst (rest : Text) :
    (Text.after? "const".toList (form.type.text ++ (form.behind ++ rest))).bind
      (Text.afterSome? isBlank) = none := by
  cases type : form.type with
  | array inside free handles => rfl
  | word name elementHandles pairs handles =>
      have proper := form.proper
      rw [type] at proper
      exact TypeSpelling.no_const _ _ (form.follows_word _ _ _ _ type rest) proper

theorem splitConst_written :
    Parameter.splitConst form.text = (form.constant.isSome, form.type.text ++ form.behind) := by
  rw [text]
  cases form.constant with
  | none =>
      have noConst := form.noConst []
      rw [List.append_nil] at noConst
      exact Parameter.splitConst_none _ noConst
  | some gap =>
      have split : constText (some gap) ++ (form.type.text ++ form.behind) =
          "const".toList ++ (gap.text ++ (form.type.text ++ form.behind)) := List.append_assoc _ _ _
      rw [split]
      exact Parameter.splitConst_const gap _ (form.stops_blank form.behind)

theorem text_chars (c : Char) (member : c ∈ form.text) :
    isWordChar c = true ∨ isBlank c = true ∨ c = '&' ∨ c ∈ form.type.text := by
  simp only [text, behind, List.mem_append] at member
  rcases member with inConst | inType | inGap | inReference | inName
  · rcases constText_chars _ c inConst with word | blank
    · exact Or.inl word
    · exact Or.inr (Or.inl blank)
  · exact Or.inr (Or.inr (Or.inr inType))
  · exact Or.inr (Or.inl (form.gap.blank c inGap))
  · rcases form.reference.text_chars c inReference with word | blank | mark
    · exact Or.inl word
    · exact Or.inr (Or.inl blank)
    · exact Or.inr (Or.inr (Or.inl mark))
  · exact Or.inl (form.name.chars c inName)

/-- No character of a parameter ends an array type. -/
theorem text_free (c : Char) (member : c ∈ form.text) : TypeSpelling.endsGeneric c = false := by
  rcases form.text_chars c member with word | blank | rfl | inType
  · exact TypeSpelling.generic_char c (Or.inl word)
  · exact TypeSpelling.blank_generic c blank
  · rfl
  · exact form.type.text_free c inType

theorem text_last : ∃ last, form.text.getLast? = some last ∧ isWordChar last = true := by
  obtain ⟨last, ends, char⟩ := form.name.last
  exact ⟨last, by simp only [text, behind, List.getLast?_append, ends, Option.some_or], char⟩

/-- Where no blank and no reference mark stand in front of the name, the type is decorated. -/
theorem touching_marked (value : form.reference = .marked .none) (touching : form.gap.text = []) :
    TypeSpelling.EndsInMark form.type.text := by
  rcases form.type.text_last with ⟨bare, _⟩ | ends
  · exact absurd (by rw [value]; rfl) (form.apart bare touching)
  · exact ends

theorem named_parameter (index : Nat) :
    form.parameter.named index = form.parameter := by
  have named : form.parameter.hasName = true := by
    simp [Parameter.hasName, parameter, form.name.some_char]
  rw [Parameter.named, if_pos named]

end ParameterText

theorem Parameter.named_type (index : Nat) (parameter : Parameter) :
    (parameter.named index).type = parameter.type := by
  rw [named]
  split <;> rfl

/-- A piece of a list that reads as the text when its handles are attached. -/
theorem Parameter.parse?_attached (piece body declared type name : Text) (isConst : Bool)
    (passing : Passing) (trimmed : piece.Trimmed) (attached : attachHandles piece = body)
    (noDefault : '=' ∉ body) (const : splitConst body = (isConst, declared))
    (split : splitName declared = (type, passing, name)) :
    parse? piece =
      if type.isEmpty || (!name.isEmpty && !Text.isIdentifier name) then none
      else some ⟨isConst, type, passing, name, none⟩ := by
  have unassigned : '=' ∉ piece := by
    rw [← attached] at noDefault
    exact fun member => noDefault ((mem_attachHandles '=' (by decide) piece).mpr member)
  rw [parse?, Text.span_absent '=' piece unassigned]
  dsimp only
  rw [Text.trim_trimmed piece trimmed, attached, const]
  dsimp only
  rw [split]
  rfl

namespace ParameterText

variable (form : ParameterText) (piece : Text) (trimmed : piece.Trimmed)
variable (attached : attachHandles piece = form.text)
include trimmed attached

theorem parse?_text (type name : Text) (passing : Passing)
    (split : Parameter.splitName (form.type.text ++ form.behind) = (type, passing, name)) :
    Parameter.parse? piece =
      if type.isEmpty || (!name.isEmpty && !Text.isIdentifier name) then none
      else some ⟨form.constant.isSome, type, passing, name, none⟩ := by
  have noDefault : '=' ∉ form.text := fun member =>
    absurd (form.text_free '=' member) (by decide)
  exact Parameter.parse?_attached piece form.text _ type name _ passing trimmed attached noDefault
    form.splitConst_written split

theorem parse?_written (spaced : form.reference = .marked .none → form.gap.text ≠ [])
    (plain : '&' ∉ form.type.inside) : Parameter.parse? piece = some form.parameter := by
  have typed : form.type.text.isEmpty = false := by
    obtain ⟨first, rest, shape, _⟩ := form.type.text_head
    rw [shape]
    rfl
  rw [form.parse?_text piece trimmed attached _ _ _ (form.splitName_written spaced plain), typed,
    form.identifies]
  simp [parameter]

-- The first `&` is taken for the reference mark, so the closing bracket ends up in the name.
theorem parse?_inside (reference : '&' ∈ form.type.inside) : Parameter.parse? piece = none := by
  cases type : form.type with
  | word name elementHandles pairs handles => simp [type, TypeText.inside] at reference
  | array inside free handles =>
      rw [type] at reference
      obtain ⟨front, later, split, apart⟩ := List.eq_append_cons_of_mem reference
      let lead : Text := arrayName ++ '<' :: front
      let rest : Text := later ++ '>' :: (TypeForm.handleMarks handles ++ form.behind)
      have shape : form.type.text ++ form.behind = lead ++ '&' :: rest := by
        rw [TypeText.inside] at split
        simp [type, TypeText.text, split, lead, rest]
      have noReference : '&' ∉ lead := by
        simp only [lead, List.mem_append, List.mem_cons, not_or]
        exact ⟨by decide, by decide, apart⟩
      have closing : '>' ∈ Text.trimStart rest :=
        Text.mem_dropWhile isBlank '>' (by decide) rest (by simp [rest])
      have behindWord := Text.mem_dropWhile isPlainChar '>' (by decide) _ closing
      have unread (type name : Text) (passing : Passing)
          (split : Parameter.splitName (form.type.text ++ form.behind) = (type, passing, name))
          (member : '>' ∈ name) : Parameter.parse? piece = none := by
        have unnamed := Text.not_identifier '>' (by decide) name member
        have some_char : name.isEmpty = false :=
          List.isEmpty_eq_false_iff.mpr (List.ne_nil_of_mem member)
        rw [form.parse?_text piece trimmed attached type name passing split, unnamed, some_char]
        simp
      have names := Parameter.splitName_reference lead rest noReference
      rw [← shape] at names
      cases read : Passing.ofWord? (Text.leadingWord (Text.trimStart rest)) with
      | none =>
          rw [read] at names
          exact unread _ _ _ names (Text.mem_trim '>' (by decide) _ closing)
      | some passing =>
          rw [read] at names
          exact unread _ _ _ names (Text.mem_trim '>' (by decide) _ behindWord)

-- The marks of the type go on into the name, so there is no identifier behind a blank.
theorem parse?_touching (value : form.reference = .marked .none) (touching : form.gap.text = [])
    (plain : '&' ∉ form.type.inside) :
    Parameter.parse? piece =
      some ⟨form.constant.isSome, form.type.text ++ form.name.text, .byValue, [], none⟩ := by
  obtain ⟨first, rest, head, char⟩ := form.type.text_head
  have behind : form.behind = form.name.text := by
    rw [ParameterText.behind, value, touching]
    rfl
  have whole : Text.Trimmed (form.type.text ++ form.name.text) := by
    constructor
    · rw [head, List.cons_append, stops_cons]
      exact word_not_blank first char
    · intro c last
      obtain ⟨other, ends, char⟩ := form.name.last
      rw [List.head?_reverse, List.getLast?_append, ends, Option.some_or, Option.some.injEq] at last
      rw [← last]
      exact word_not_blank other char
  have unidentified :
      Text.isIdentifier (Text.takeEndWhile (!isBlank ·) (form.type.text ++ form.name.text)) = false := by
    obtain ⟨front, mark, shape, listed⟩ := form.touching_marked value touching
    obtain ⟨notBlank, notName⟩ := (by decide : ∀ c ∈ ['@', ']', '>'],
      (!isBlank c) = true ∧ isNameChar c = false) mark listed
    apply Text.not_identifier mark notName
    rw [shape, List.append_assoc, List.singleton_append]
    apply Text.mem_takeEndWhile
    intro c member
    rcases List.mem_cons.mp member with rfl | inName
    · exact notBlank
    · rw [word_not_blank c (form.name.chars c inName)]
      rfl
  have noReference : '&' ∉ form.type.text ++ form.name.text := by
    rw [List.mem_append, not_or]
    exact ⟨form.type.not_reference plain, word_not_reference form.name⟩
  have split : Parameter.splitName (form.type.text ++ form.behind) =
      (form.type.text ++ form.name.text, .byValue, []) := by
    rw [behind, Parameter.splitName_plain _ noReference]
    simp only [unidentified, Bool.and_false, Bool.false_eq_true, if_false, Text.trim_trimmed _ whole]
  rw [form.parse?_text piece trimmed attached _ _ _ split]
  simp [head]

end ParameterText

end ScriptSense
