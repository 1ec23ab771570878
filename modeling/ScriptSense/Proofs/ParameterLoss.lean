import ScriptSense.Proofs.ParameterScope

/-!
Parameters the search misses. A name it finds in a parameter list is the last word of a piece, so
where the types hold no comma a parameter is in scope only if the search reads it as it is written.
-/
namespace ScriptSense

/-- The first character that ends a name splits a text in one way. -/
theorem first_end (left right : Text) (first second : Char) (rest more : Text)
    (unendedLeft : ∀ c ∈ left, Declaration.endsName c = false)
    (endsLeft : Declaration.endsName first = true)
    (unendedRight : ∀ c ∈ right, Declaration.endsName c = false)
    (endsRight : Declaration.endsName second = true)
    (same : left ++ first :: rest = right ++ second :: more) :
    left = right ∧ first :: rest = second :: more := by
  have split (text : Text) (stop : Char) (behind : Text)
      (unended : ∀ c ∈ text, Declaration.endsName c = false)
      (ends : Declaration.endsName stop = true) :
      (text ++ stop :: behind).span (!Declaration.endsName ·) = (text, stop :: behind) := by
    apply Text.span_run
    · intro c member
      rw [unended c member]
      rfl
    · rw [stops_cons, ends]
      rfl
  have parts := split left first rest unendedLeft endsLeft
  rw [same, split right second more unendedRight endsRight] at parts
  exact ⟨(congrArg Prod.fst parts).symm, (congrArg Prod.snd parts).symm⟩

theorem word_unended (c : Char) (word : isWordChar c = true) : Declaration.endsName c = false := by
  rw [← Bool.not_eq_true]
  intro ends
  rw [Declaration.endsName_not_word c ends] at word
  cases word

theorem blank_unended (c : Char) (blank : isBlank c = true) : Declaration.endsName c = false := by
  rw [← Bool.not_eq_true]
  intro ends
  rw [Declaration.endsName_not_blank c ends] at blank
  cases blank

/-- A name and its end lie in the first piece, or behind the separator. -/
theorem place_cases (piece : Text) (separator : Char) (more before : Text) (name : Word) (trail : Gap)
    (stop : Char) (rest : Text) (unended : ∀ c ∈ piece, Declaration.endsName c = false)
    (separates : Declaration.endsName separator = true) (ends : Declaration.endsName stop = true)
    (split : piece ++ separator :: more = before ++ (name.text ++ (trail.text ++ stop :: rest))) :
    piece = before ++ (name.text ++ trail.text) ∨
      ∃ later, before = piece ++ separator :: later ∧
        more = later ++ (name.text ++ (trail.text ++ stop :: rest)) := by
  rcases List.append_eq_append_iff.mp split with ⟨between, shape, behind⟩ | ⟨last, shape, behind⟩
  · cases between with
    | nil =>
        -- The separator would be the first character of the name.
        obtain ⟨first, others, named, char⟩ := name.head
        rw [List.nil_append, named, List.cons_append, List.cons.injEq] at behind
        rw [behind.1, word_unended first char] at separates
        cases separates
    | cons c later =>
        obtain ⟨rfl, rfl⟩ := List.cons.inj behind
        exact Or.inr ⟨later, shape, rfl⟩
  · have unendedName : ∀ c ∈ name.text ++ trail.text, Declaration.endsName c = false := by
      intro c member
      rcases List.mem_append.mp member with inName | inTrail
      · exact word_unended c (name.chars c inName)
      · exact blank_unended c (trail.blank c inTrail)
    have unendedLast : ∀ c ∈ last, Declaration.endsName c = false := fun c member =>
      unended c (by rw [shape]; exact List.mem_append_right before member)
    have joined : (name.text ++ trail.text) ++ stop :: rest = last ++ separator :: more := by
      rw [List.append_assoc, behind]
    obtain ⟨same, _⟩ := first_end _ _ _ _ _ _ unendedName ends unendedLast separates joined
    exact Or.inl (by rw [shape, same])

namespace ParameterText

structure Simple (form : ParameterText) : Prop where
  comma : ',' ∉ form.type.inside
  reference : '&' ∉ form.type.inside

def front (form : ParameterText) : Text :=
  constText form.constant ++ (form.type.text ++ (form.gap.text ++ form.reference.text))

theorem text_front (form : ParameterText) : form.text = form.front ++ form.name.text := by
  simp [text, front, behind]

theorem front_some (form : ParameterText) : form.front ≠ [] := by
  obtain ⟨first, rest, shape, _⟩ := form.type.text_head
  simp [front, shape]

theorem spelled (form : ParameterText) (rest : Text) :
    TypeSpelling.Spelled form.type.text (form.behind ++ rest) := by
  rcases form.type.text_last with ⟨bare, chars⟩ | ends
  · obtain ⟨first, others, shape, _⟩ := form.type.text_head
    refine Or.inr ⟨by simp [shape], chars, fun c head => ?_⟩
    rcases form.behind_head rest c head with blank | rfl | ⟨_, touching, value⟩
    · exact blank_not_word c blank
    · rfl
    · exact absurd value (form.apart bare touching)
  · exact Or.inl ends

/-- What stands in front of the name is no part of a word. -/
theorem front_stops (form : ParameterText) : Stops isWordChar form.front.reverse := by
  cases reference : form.reference with
  | marked mark =>
      have spelled := form.spelled []
      rw [behind, reference] at spelled
      have stop := Declaration.border_stops (constText form.constant) form.type.text
        ⟨form.gap, mark, form.name⟩ [] spelled
      rwa [front, reference]
  | bare trail =>
      have apart : ∀ c ∈ '&' :: trail.text, isWordChar c = false := by
        intro c member
        rcases List.mem_cons.mp member with rfl | inTrail
        · rfl
        · exact blank_not_word c (trail.blank c inTrail)
      have split : form.front = (constText form.constant ++ (form.type.text ++ form.gap.text)) ++
          '&' :: trail.text := by
        simp [front, reference, ReferenceText.text]
      rw [split, stops_reverse isWordChar _ _ (by simp)]
      exact stops_apart isWordChar _ apart

theorem Simple.inside_unended {form : ParameterText} (simple : form.Simple) (c : Char)
    (member : c ∈ form.type.inside) : Declaration.endsName c = false := by
  cases ends : Declaration.endsName c with
  | false => rfl
  | true =>
      have free := form.type.inside_free c member
      have listed := Declaration.endsName_cases c ends
      simp only [List.mem_cons, List.not_mem_nil, or_false] at listed
      rcases listed with rfl | rfl | rfl | rfl
      · cases free
      · cases free
      · exact absurd member simple.comma
      · cases free

/-- No name and its end stand inside of a simple type. -/
theorem Simple.settled {form : ParameterText} (simple : form.Simple) (lead behind : Text)
    (split : form.type.inside = lead ++ '>' :: behind) :
    Declaration.name? ((TypeSpelling.takeHandles behind).2 ++ ['>']) = none := by
  rw [Option.eq_none_iff_forall_not_mem]
  rintro ⟨name, rest⟩ read
  obtain ⟨part, shape, _, trail, stop, more, ending, ends⟩ := Declaration.name?_sound _ name rest read
  have inText : stop ∈ (TypeSpelling.takeHandles behind).2 ++ ['>'] := by
    rw [shape, ending]
    simp
  rcases List.mem_append.mp inText with inBehind | closing
  · have inInside : stop ∈ form.type.inside := by
      rw [split, (TypeSpelling.takeHandles_sound behind).1]
      simp [inBehind]
    rw [simple.inside_unended stop inInside] at ends
    cases ends
  · rw [List.mem_singleton.mp closing] at ends
    cases ends

theorem Simple.text_unended {form : ParameterText} (simple : form.Simple) (c : Char)
    (member : c ∈ form.text) : Declaration.endsName c = false := by
  rcases form.text_chars c member with word | blank | rfl | inType
  · exact word_unended c word
  · exact blank_unended c blank
  · rfl
  · rcases form.type.text_chars c inType with word | mark | inInside
    · exact word_unended c word
    · exact (by decide : ∀ c ∈ ['@', '[', ']', '<', '>'], Declaration.endsName c = false) c mark
    · exact simple.inside_unended c inInside

/-- A decorated type with a name right behind it is no type. -/
theorem touching_unspelled (form : ParameterText) (value : form.reference = .marked .none)
    (touching : form.gap.text = []) (rest : Text) :
    ¬ TypeSpelling.Spelled (form.type.text ++ form.name.text) rest := by
  rintro (⟨front, last, shape, inMarks⟩ | ⟨_, chars, _⟩)
  · obtain ⟨nameLast, ends, char⟩ := form.name.last
    have both : (form.type.text ++ form.name.text).getLast? = some last := by
      rw [shape, List.getLast?_concat]
    rw [List.getLast?_append, ends, Option.some_or, Option.some.injEq] at both
    rw [both, TypeSpelling.mark_not_word last inMarks] at char
    cases char
  · obtain ⟨front, mark, shape, inMarks⟩ := form.touching_marked value touching
    have char := chars mark (by simp [shape])
    rw [TypeSpelling.mark_not_word mark inMarks] at char
    cases char

end ParameterText

namespace ListedText

theorem text_unended (item : ListedText) (simple : ∀ form ∈ item.forms, form.Simple) (c : Char)
    (member : c ∈ item.text) : Declaration.endsName c = false := by
  cases item with
  | blank gap => exact blank_unended c (gap.blank c member)
  | parameter lead form trail =>
      rw [text, List.mem_append, List.mem_append] at member
      rcases member with inLead | inForm | inTrail
      · exact blank_unended c (lead.blank c inLead)
      · exact (simple form (List.mem_singleton_self form)).text_unended c inForm
      · exact blank_unended c (trail.blank c inTrail)

/-- A name at the end of a piece is that of its parameter. -/
theorem name_last (item : ListedText) (before : Text) (name : Word) (trail : Gap)
    (stop : Stops isWordChar before.reverse) (unmarked : Declaration.Unmarked before)
    (split : item.text = before ++ (name.text ++ trail.text)) :
    ∃ form ∈ item.forms, form.name.text = name.text ∧ ∀ trail, form.reference ≠ .bare trail := by
  cases item with
  | blank gap =>
      obtain ⟨first, later, shape, char⟩ := name.head
      have member : first ∈ gap.text := by
        change gap.text = _ at split
        rw [split, shape]
        simp
      rw [blank_not_word first (gap.blank first member)] at char
      cases char
  | parameter lead form behind =>
      have formEnds : Stops isBlank (lead.text ++ form.text).reverse := by
        rw [form.text_front, ← List.append_assoc, stops_reverse isBlank _ _ form.name.some_char]
        exact form.name.trimmed.last
      have nameEnds : Stops isBlank (before ++ name.text).reverse := by
        rw [stops_reverse isBlank _ _ name.some_char]
        exact name.trimmed.last
      have same : lead.text ++ form.text = before ++ name.text := by
        have left := Text.trimEnd_gap _ behind formEnds
        have right := Text.trimEnd_gap _ trail nameEnds
        rw [List.append_assoc, ← split] at right
        rw [List.append_assoc] at left
        exact left.symm.trans right
      rw [form.text_front, ← List.append_assoc] at same
      have frontStops : Stops isWordChar (lead.text ++ form.front).reverse := by
        rw [stops_reverse isWordChar _ _ form.front_some]
        exact form.front_stops
      have names := Text.takeEndWhile_run isWordChar _ form.name.text form.name.chars frontStops
      have fronts := Text.dropEndWhile_run isWordChar _ form.name.text form.name.chars frontStops
      rw [same, Text.takeEndWhile_run isWordChar before name.text name.chars stop] at names
      rw [same, Text.dropEndWhile_run isWordChar before name.text name.chars stop] at fronts
      refine ⟨form, List.mem_singleton_self form, names.symm, ?_⟩
      intro bareTrail bare
      apply unmarked (lead.text ++ (constText form.constant ++ (form.type.text ++ form.gap.text)))
        bareTrail
      rw [fronts]
      simp [ParameterText.front, bare, ReferenceText.text]

/-- A name in front of a character that ends it is that of a parameter without a bare `&`. -/
theorem name_written (items : List ListedText)
    (simple : ∀ form ∈ items.flatMap forms, form.Simple) (before : Text) (name : Word) (trail : Gap)
    (stop : Char) (rest : Text) (ends : Declaration.endsName stop = true)
    (border : Stops isWordChar before.reverse) (unmarked : Declaration.Unmarked before)
    (split : [','].intercalate (items.map text) ++ [')'] =
      before ++ (name.text ++ (trail.text ++ stop :: rest))) :
    ∃ form ∈ items.flatMap forms, form.name.text = name.text ∧
      ∀ trail, form.reference ≠ .bare trail := by
  obtain ⟨first, others, shape, _⟩ := name.head
  induction items generalizing before with
  | nil =>
      rcases place_cases [] ')' [] before name trail stop rest (by simp) rfl ends split with
        here | ⟨later, _, behind⟩
      · simp [shape] at here
      · simp [shape] at behind
  | cons item items ih =>
      rw [List.flatMap_cons] at simple ⊢
      have unended := item.text_unended fun form member =>
        simple form (List.mem_append_left _ member)
      have found (here : item.text = before ++ (name.text ++ trail.text)) :
          ∃ form ∈ item.forms ++ items.flatMap forms, form.name.text = name.text ∧
            ∀ trail, form.reference ≠ .bare trail := by
        obtain ⟨form, member, same, marked⟩ := item.name_last before name trail border unmarked here
        exact ⟨form, List.mem_append_left _ member, same, marked⟩
      cases items with
      | nil =>
          rw [List.map_singleton, List.intercalate_singleton] at split
          rcases place_cases item.text ')' [] before name trail stop rest unended rfl ends split with
            here | ⟨later, _, behind⟩
          · exact found here
          · simp [shape] at behind
      | cons next items =>
          rw [List.map_cons, List.map_cons, List.intercalate_cons_cons, List.append_assoc,
            List.append_assoc, List.singleton_append] at split
          rcases place_cases item.text ',' _ before name trail stop rest unended rfl ends split with
            here | ⟨later, earlier, behind⟩
          · exact found here
          · have joined : before = (item.text ++ [',']) ++ later := by rw [earlier]; simp
            rw [joined] at border unmarked
            have borderLater : Stops isWordChar later.reverse := by
              by_cases empty : later = []
              · rw [empty]
                simp [Stops]
              · exact (stops_reverse isWordChar _ later empty).mp border
            have unmarkedLater := Declaration.unmarked_behind _ later unmarked
            obtain ⟨form, member, same, marked⟩ := ih
              (fun form member => simple form (List.mem_append_right _ member)) later borderLater
              unmarkedLater behind
            exact ⟨form, List.mem_append_right _ member, same, marked⟩

end ListedText

def InBodyScope (list : Text) : Prop :=
  ∀ header : OpenHeader, header.list = list → ∀ globals, header.InScope globals

structure Spells (list : Text) (forms : List ParameterText) : Prop where
  code : ∀ c ∈ list, isCode c = true
  written : WrittenList list forms
  distinct : (forms.map (·.name.text)).Nodup

def OpenHeader.alone (list : Text) (code : ∀ c ∈ list, isCode c = true) : OpenHeader where
  lead := "void f".toList
  list := list
  gap := .one
  outside := by decide
  code := code

theorem OpenHeader.alone_earlier (list : Text) (code : ∀ c ∈ list, isCode c = true) :
    (alone list code).earlier = [] := by
  change declarations
    (foldedText braces (attachHandles (blankTrivia true "void f".toList)) ++ ['(']) = []
  decide +kernel

namespace Spells

variable {list : Text} {forms : List ParameterText} (spells : Spells list forms)
include spells

theorem named_once (form other : ParameterText) (inForms : form ∈ forms) (inOthers : other ∈ forms)
    (same : form.name.text = other.name.text) : form = other :=
  List.inj_on_of_nodup_map spells.distinct inForms inOthers same

/-- Where the parameters are in scope, the search finds each parameter of the signature. -/
theorem found (inScope : InBodyScope list) (parameter : Parameter)
    (member : parameter ∈ (Signature.parse list).parameters) :
    (⟨parameter.type, parameter.name⟩ : Declaration) ∈
      declarations (attachHandles list ++ [')']) := by
  let header := OpenHeader.alone list spells.code
  have typed := inScope header rfl [] parameter member
  have plain : ∀ c ∈ attachHandles header.list, TypeSpelling.endsGeneric c = false :=
    spells.written.free
  rw [Scope.typeOf?, header.locals [] plain, OpenHeader.alone_earlier list spells.code] at typed
  obtain ⟨⟨type, name⟩, last, rfl⟩ := Option.map_eq_some_iff.mp typed
  change ((header.found.reverse.find? _).or none) = _ at last
  rw [Option.or_none] at last
  have named := List.find?_some last
  have listed := List.mem_reverse.mp (List.mem_of_find?_eq_some last)
  simp only [decide_eq_true_eq] at named
  subst named
  exact listed

theorem name_found (simple : ∀ form ∈ forms, form.Simple) (declared : Declaration)
    (member : declared ∈ declarations (attachHandles list ++ [')'])) :
    ∃ form ∈ forms, form.name.text = declared.name ∧ ∀ trail, form.reference ≠ .bare trail := by
  obtain ⟨listed, texts, rfl⟩ := spells.written.listed
  obtain ⟨place⟩ := (declarations_inOrder _).place declared member
  have border := Declaration.border_stops place.left declared.type place.part _ place.spelled
  have unmarked := Declaration.border_unmarked place.left declared.type place.part _ place.spelled
  rw [← place.named]
  refine ListedText.name_written listed simple _ place.part.name place.trail place.stop place.rest
    place.ends border unmarked ?_
  rw [← texts]
  refine place.split.trans ?_
  simp [NamePart.text]

section Form

variable (inScope : InBodyScope list) (form : ParameterText) (inForms : form ∈ forms)
variable (plain : '&' ∉ form.type.inside)
include inScope inForms plain

-- Without a blank the signature has the whole text as a type, which the search never reads.
theorem spaced (value : form.reference = .marked .none) : form.gap.text ≠ [] := by
  intro touching
  obtain ⟨piece, trimmed, attached, listed⟩ := spells.written.parsed form inForms
  obtain ⟨index, member⟩ :=
    listed _ (form.parse?_touching piece trimmed attached value touching plain)
  have declared := spells.found inScope _ member
  rw [Parameter.named_type] at declared
  obtain ⟨place⟩ := (declarations_inOrder _).place _ declared
  exact form.touching_unspelled value touching _ place.spelled

theorem found_written : form.declaration ∈ declarations (attachHandles list ++ [')']) := by
  obtain ⟨piece, trimmed, attached, listed⟩ := spells.written.parsed form inForms
  have apart : form.reference = .marked .none → form.gap.text ≠ [] :=
    spells.spaced inScope form inForms plain
  obtain ⟨index, member⟩ := listed _ (form.parse?_written piece trimmed attached apart plain)
  rw [form.named_parameter index] at member
  exact spells.found inScope form.parameter member

theorem marked (simple : ∀ form ∈ forms, form.Simple) (trail : Gap) :
    form.reference ≠ .bare trail := by
  obtain ⟨other, inOthers, same, marked⟩ :=
    spells.name_found simple _ (spells.found_written inScope form inForms plain)
  rw [spells.named_once form other inForms inOthers same.symm]
  exact marked trail

end Form

end Spells

/-- Each parameter of a list is in scope if the search reads all of them as they are written, and,
where no type holds a comma or a `&`, only then. -/
theorem parameters_in_scope (list : Text) (forms : List ParameterText) (spells : Spells list forms) :
    ((∀ form ∈ forms, form.Readable) → InBodyScope list) ∧
      ((∀ form ∈ forms, form.Simple) → InBodyScope list → ∀ form ∈ forms, form.Readable) := by
  constructor
  · rintro readable header rfl globals
    exact header.inScope_readable forms spells.written globals spells.distinct readable
  · intro simple inScope form inForms
    have simpleForm := simple form inForms
    have plain := simpleForm.reference
    exact {
      marked := spells.marked inScope form inForms plain simple
      spaced := spells.spaced inScope form inForms plain
      typed := (List.mem_filter.mp (spells.found_written inScope form inForms plain)).2
      settled := simpleForm.settled }

-- A handle apart from its type is read as a part of it, and a bare `&` takes the name out of scope.
theorem parameters_in_scope_handle :
    InBodyScope "const Vec2f &in a, array<u8@> @b".toList ∧ ¬ InBodyScope "Vec2f& v".toList := by
  let vector : TypeText := .word { text := "Vec2f".toList } 0 0 0
  let space : Break := { Gap.one with some_blank := nofun }
  let a : ParameterText :=
    { constant := some space, type := vector, gap := .one,
      reference := .marked (.mode .none "in".toList (by decide) space), name := { text := ['a'] },
      unmarked := nofun }
  let b : ParameterText :=
    { constant := none, type := .array "u8@".toList (by decide) 1, gap := .one,
      reference := .marked .none, name := { text := ['b'] }, unmarked := nofun }
  let v : ParameterText :=
    { constant := none, type := vector, gap := .none, reference := .bare .one,
      name := { text := ['v'] }, unmarked := fun _ _ => by decide }
  have found : InBodyScope "const Vec2f &in a, array<u8@> @b".toList := by
    refine (parameters_in_scope _ [a, b] ⟨by decide, by decide +kernel, by decide⟩).1 ?_
    intro form member
    rcases List.mem_pair.mp member with rfl | rfl
    · have simple : a.Simple := ⟨by decide, by decide⟩
      exact ⟨by rintro _ ⟨⟩, by rintro ⟨⟩, by decide, simple.settled⟩
    · have simple : b.Simple := ⟨by decide, by decide⟩
      exact ⟨by rintro _ ⟨⟩, fun _ => by decide, by decide, simple.settled⟩
  have lost : ¬ InBodyScope "Vec2f& v".toList := by
    intro inScope
    have simple : ∀ form ∈ [v], form.Simple := by
      intro form member
      rw [List.mem_singleton.mp member]
      exact ⟨by decide, by decide⟩
    have readable := (parameters_in_scope _ [v] ⟨by decide, by decide +kernel, by decide⟩).2 simple
      inScope v List.mem_cons_self
    exact readable.marked .one rfl
  exact ⟨found, lost⟩

/-- The signature reads a parameter with a bare `&`, but no type is found for its name. -/
theorem bare_reference_lost :
    (Signature.parse "Vec2f& v".toList).parameters =
        [⟨false, "Vec2f".toList, .inputOutput, "v".toList, none⟩] ∧
      (Scope.ofText (sanitize "void f(Vec2f& v) \x7b".toList) []).typeOf? "v".toList = none := by
  decide +kernel

end ScriptSense
