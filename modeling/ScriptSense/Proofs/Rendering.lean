import ScriptSense.Proofs.AttachedList

/-!
Rendered parameters. A parameter that was read has a trimmed type with its handles attached. Its
rendered form is cut into the same parts again where the type is legible: what stands in front of the
type or behind it must not change how it reads. Rendering keeps the commas and brackets of what was
read.
-/
namespace ScriptSense

theorem mark_apart (c : Char) (mark : splitsLists c = true) :
    isNameChar c = false ∧ isPlainChar c = false := by
  have marks : ∀ c ∈ [',', '(', '[', '{', '<', ')', ']', '}', '>'],
      isNameChar c = false ∧ isPlainChar c = false := by
    decide
  exact marks c (by simpa [splitsLists] using mark)

theorem name_no_split (c : Char) (name : isNameChar c = true) : splitsLists c = false := by
  cases mark : splitsLists c with
  | false => rfl
  | true =>
      rw [(mark_apart c mark).1] at name
      cases name

theorem plain_no_split (c : Char) (plain : isPlainChar c = true) : splitsLists c = false := by
  cases mark : splitsLists c with
  | false => rfl
  | true =>
      rw [(mark_apart c mark).2] at plain
      cases plain

namespace Parameter

def Nameable (name : Text) : Prop := name = [] ∨ Text.isIdentifier name = true

theorem Nameable.chars {name : Text} (nameable : Nameable name) :
    ∀ c ∈ name, isNameChar c = true := by
  rcases nameable with rfl | identifier
  · exact List.forall_mem_nil _
  · exact (Text.identifier_chars name identifier).2

/-- How a parameter was read from its declaration. -/
theorem ofDeclared?_parts (declared : Text) (default : Option Text) (parameter : Parameter)
    (read : ofDeclared? declared default = some parameter) :
    ∃ inner,
      splitConst declared = (parameter.isConst, inner) ∧
      splitName inner = (parameter.type, parameter.passing, parameter.name) ∧
      parameter.type ≠ [] ∧ Nameable parameter.name ∧ parameter.default = default := by
  rw [ofDeclared?] at read
  dsimp only at read
  split at read
  · cases read
  · next proper =>
      rw [Option.some.injEq] at read
      subst read
      simp only [Bool.or_eq_true, Bool.and_eq_true, Bool.not_eq_true', List.isEmpty_iff,
        List.isEmpty_eq_false_iff, not_or, not_and, Bool.not_eq_false] at proper
      refine ⟨_, rfl, rfl, proper.1, ?_, rfl⟩
      rw [Nameable, or_iff_not_imp_left]
      exact proper.2

/-- How a parameter was read from a text. -/
theorem parse?_parts (text : Text) (parameter : Parameter) (read : parse? text = some parameter) :
    ∃ inner,
      splitConst (attachHandles (Text.trim (text.takeWhile (· != '=')))) =
        (parameter.isConst, inner) ∧
      splitName inner = (parameter.type, parameter.passing, parameter.name) ∧
      parameter.type ≠ [] ∧ Nameable parameter.name ∧
      parameter.default = defaultOf (text.dropWhile (· != '=')) := by
  rw [parse?_declared _ _ _ (List.span_eq_takeWhile_dropWhile ..)] at read
  exact ofDeclared?_parts _ _ _ read

theorem splitConst_cases (declared inner : Text) (isConst : Bool)
    (split : splitConst declared = (isConst, inner)) :
    (isConst = false ∧ inner = declared ∧
        (Text.after? "const".toList declared).bind (Text.afterSome? isBlank) = none) ∨
      (isConst = true ∧ ∃ gap : Gap, declared = "const".toList ++ (gap.text ++ inner)) := by
  rw [splitConst] at split
  split at split
  · next first rest read =>
      split at split
      · next blank =>
          cases split
          obtain ⟨gap, shape⟩ := Text.trimStart_split rest
          refine .inr ⟨rfl, ⟨first :: gap.text, List.forall_mem_cons.mpr ⟨blank, gap.blank⟩⟩, ?_⟩
          rw [Text.after?_some _ _ _ read]
          simp [← shape]
      · next visible =>
          cases split
          refine .inl ⟨rfl, rfl, ?_⟩
          rw [read, Option.bind_some, Text.afterSome?, if_neg visible]
  · next unread =>
      cases split
      refine .inl ⟨rfl, rfl, ?_⟩
      cases read : Text.after? "const".toList declared with
      | none => rfl
      | some behind =>
          cases behind with
          | nil => rfl
          | cons first rest => exact absurd read (unread first rest)

/-- The type is what stands in front of the reference mark or of the name, and no mark of a list
stands behind it. -/
def TypeInFront (inner type : Text) : Prop :=
  ∃ front behind, inner = front ++ behind ∧ type = Text.trim front ∧ '&' ∉ front ∧
    ∀ c ∈ behind, splitsLists c = false

theorem nameable_no_split {name : Text} (nameable : Nameable name) (text : Text)
    (trimmed : Text.trim text = name) : ∀ c ∈ text, splitsLists c = false := by
  intro c member
  rcases Text.trim_chars text c member with blank | inside
  · exact blank_no_split c blank
  · exact name_no_split c (nameable.chars c (trimmed ▸ inside))

theorem typeInFront_reference (front behind type name : Text) (passing : Passing) (apart : '&' ∉ front)
    (split : splitName (front ++ '&' :: behind) = (type, passing, name)) (nameable : Nameable name) :
    TypeInFront (front ++ '&' :: behind) type := by
  rw [splitName_reference front behind apart] at split
  have free : type = Text.trim front ∧ ∀ c ∈ Text.trimStart behind, splitsLists c = false := by
    split at split
    · cases split
      refine ⟨rfl, fun c member => ?_⟩
      rw [← List.takeWhile_append_dropWhile (p := isPlainChar) (l := Text.trimStart behind),
        List.mem_append] at member
      rcases member with inWord | inRest
      · exact plain_no_split c (List.mem_takeWhile_imp inWord)
      · exact nameable_no_split nameable _ rfl c inRest
    · cases split
      exact ⟨rfl, nameable_no_split nameable _ rfl⟩
  refine ⟨front, '&' :: behind, rfl, free.1, apart, List.forall_mem_cons.mpr ⟨by decide, fun c member => ?_⟩⟩
  obtain ⟨gap, shape⟩ := Text.trimStart_split behind
  rw [shape, List.mem_append] at member
  rcases member with inGap | inside
  · exact blank_no_split c (gap.blank c inGap)
  · exact free.2 c inside

theorem typeInFront_plain (inner type name : Text) (passing : Passing) (reference : '&' ∉ inner)
    (split : splitName inner = (type, passing, name)) (nameable : Nameable name) :
    TypeInFront inner type := by
  rw [splitName_plain inner reference] at split
  dsimp only at split
  split at split
  · cases split
    have whole := (Text.dropEndWhile_append (!isBlank ·) inner).symm
    refine ⟨_, _, whole, rfl, fun member => reference ?_, fun c member =>
      name_no_split c (nameable.chars c member)⟩
    rw [whole]
    exact List.mem_append_left _ member
  · cases split
    exact ⟨inner, [], (List.append_nil inner).symm, rfl, reference, List.forall_mem_nil _⟩

theorem splitName_type (inner type name : Text) (passing : Passing)
    (split : splitName inner = (type, passing, name)) (nameable : Nameable name) :
    TypeInFront inner type := by
  by_cases reference : '&' ∈ inner
  · obtain ⟨front, behind, rfl, apart⟩ := List.eq_append_cons_of_mem reference
    exact typeInFront_reference front behind type name passing apart split nameable
  · exact typeInFront_plain inner type name passing reference split nameable

def declaredText (parameter : Parameter) : Text :=
  (if parameter.isConst then "const ".toList else []) ++ parameter.type ++
    (if parameter.passing = .byValue then [] else ' ' :: parameter.passing.mark) ++
    (if parameter.hasName then ' ' :: parameter.name else [])

def defaultText (default : Option Text) : Text :=
  match default with
  | none => []
  | some value => " = ".toList ++ value

theorem render_parts (parameter : Parameter) :
    parameter.render = parameter.declaredText ++ defaultText parameter.default := rfl

theorem declaredText_marks (parameter : Parameter) (nameable : Nameable parameter.name) :
    listMarks parameter.declaredText = listMarks parameter.type := by
  have const : listMarks (if parameter.isConst then "const ".toList else []) = [] := by
    split <;> rfl
  have mark : listMarks
      (if parameter.passing = .byValue then [] else ' ' :: parameter.passing.mark) = [] := by
    cases parameter.passing <;> rfl
  have name : listMarks (if parameter.hasName then ' ' :: parameter.name else []) = [] := by
    refine listMarks_free _ fun c member => ?_
    split at member
    · rcases List.mem_cons.mp member with rfl | inName
      · rfl
      · exact name_no_split c (nameable.chars c inName)
    · cases member
  rw [declaredText, listMarks_append, listMarks_append, listMarks_append, const, mark, name,
    List.append_nil, List.append_nil, List.nil_append]

theorem defaultText_marks (assigned : Text) (first : ∀ c, assigned.head? = some c → c = '=') :
    listMarks (defaultText (defaultOf assigned)) = listMarks assigned := by
  cases assigned with
  | nil => rfl
  | cons c value =>
      obtain rfl := first c rfl
      have mark : listMarks ('=' :: value) = listMarks value := rfl
      have trimmed := listMarks_trim value
      rw [defaultOf, mark, ← trimmed]
      split
      · next empty =>
          rw [List.isEmpty_iff.mp empty]
          rfl
      · rw [defaultText, listMarks_append]
        rfl

/-- Rendering keeps the commas and brackets of what was read. -/
theorem render_marks (text : Text) (parameter : Parameter) (read : parse? text = some parameter) :
    listMarks parameter.render = listMarks text := by
  obtain ⟨inner, const, name, _, nameable, default⟩ := parse?_parts text parameter read
  obtain ⟨front, behind, shape, type, _, free⟩ := splitName_type inner _ _ _ name nameable
  have declared : listMarks parameter.type = listMarks inner := by
    rw [type, listMarks_trim, shape, listMarks_append, listMarks_free behind free, List.append_nil]
  have inside : listMarks inner = listMarks (text.takeWhile (· != '=')) := by
    have whole := listMarks_attachHandles (Text.trim (text.takeWhile (· != '=')))
    rw [listMarks_trim] at whole
    rcases splitConst_cases _ inner _ const with ⟨_, same, _⟩ | ⟨_, gap, same⟩
    · rw [same, whole]
    · rw [← whole, same, listMarks_append, listMarks_append, listMarks_gap]
      rfl
  have first : ∀ c, (text.dropWhile (· != '=')).head? = some c → c = '=' := by
    intro c head
    simpa using Text.stops_dropWhile (· != '=') text c head
  rw [render_parts, listMarks_append, declaredText_marks parameter nameable, declared, inside, default,
    defaultText_marks _ first, ← listMarks_append, List.takeWhile_append_dropWhile]

structure Canonical (parameter : Parameter) : Prop where
  some_type : parameter.type ≠ []
  trimmed : parameter.type.Trimmed
  handles : AllAttached parameter.type
  noDefault : '=' ∉ parameter.type
  noReference : '&' ∉ parameter.type
  noConst : parameter.isConst = false →
    (Text.after? "const".toList parameter.type).bind (Text.afterSome? isBlank) = none
  nameable : Nameable parameter.name
  default : ∀ value, parameter.default = some value → value ≠ [] ∧ value.Trimmed

theorem noConst_front (front behind : Text)
    (noConst : (Text.after? "const".toList (front ++ behind)).bind (Text.afterSome? isBlank) = none) :
    (Text.after? "const".toList front).bind (Text.afterSome? isBlank) = none := by
  cases read : Text.after? "const".toList front with
  | none => rfl
  | some rest =>
      rw [Text.after?_some _ _ _ read, List.append_assoc, Text.after?_append, Option.bind_some] at noConst
      cases rest with
      | nil => rfl
      | cons first rest =>
          rw [List.cons_append, Text.afterSome?] at noConst
          rw [Option.bind_some, Text.afterSome?]
          split at noConst
          · cases noConst
          · next visible => rw [if_neg visible]

theorem defaultOf_some (assigned value : Text) (default : defaultOf assigned = some value) :
    value ≠ [] ∧ value.Trimmed := by
  cases assigned with
  | nil => cases default
  | cons first rest =>
      rw [defaultOf] at default
      split at default
      · cases default
      · next some_char =>
          rw [← Option.some.inj default]
          exact ⟨fun empty => some_char (List.isEmpty_iff.mpr empty), Text.trimmed_trim rest⟩

theorem defaultOf_chars (assigned value : Text) (default : defaultOf assigned = some value) (c : Char)
    (member : c ∈ value) : c ∈ assigned := by
  cases assigned with
  | nil => cases default
  | cons first rest =>
      rw [defaultOf] at default
      split at default
      · cases default
      · rw [← Option.some.inj default] at member
        exact List.mem_cons_of_mem first (Text.of_mem_trim c rest member)

theorem parse?_canonical (text : Text) (parameter : Parameter) (read : parse? text = some parameter) :
    parameter.Canonical := by
  obtain ⟨inner, const, name, some_type, nameable, default⟩ := parse?_parts text parameter read
  obtain ⟨front, behind, shape, type, noReference, _⟩ := splitName_type inner _ _ _ name nameable
  let declared := attachHandles (Text.trim (text.takeWhile (· != '=')))
  have split : ∃ lead, declared = lead ++ inner := by
    rcases splitConst_cases declared inner _ const with ⟨_, same, _⟩ | ⟨_, gap, same⟩
    · exact ⟨[], same.symm⟩
    · exact ⟨"const".toList ++ gap.text, by rw [same, List.append_assoc]⟩
  obtain ⟨lead, split⟩ := split
  have handles : AllAttached (lead ++ (front ++ behind)) := by
    rw [← shape, ← split]
    exact allAttached_attachHandles _
  have noDefault : '=' ∉ declared := by
    intro member
    have inside := (mem_attachHandles '=' (by decide) _).mp member
    exact absurd (List.mem_takeWhile_imp (Text.of_mem_trim '=' _ inside)) (by decide)
  have inFront (c : Char) (member : c ∈ parameter.type) : c ∈ front :=
    Text.of_mem_trim c front (type ▸ member)
  have noConst (plain : parameter.isConst = false) :
      (Text.after? "const".toList parameter.type).bind (Text.afterSome? isBlank) = none := by
    rcases splitConst_cases declared inner _ const with ⟨_, same, noConst⟩ | ⟨isConst, _⟩
    · have stop : Stops isBlank declared := attachHandles_stops _ (Text.trimmed_trim _).first
      rw [← same, shape] at stop
      have stopFront : Stops isBlank front := by
        intro c head
        exact stop c (by rw [List.head?_append, head]; rfl)
      obtain ⟨trail, whole⟩ := Text.trim_front front stopFront
      rw [← same, shape, whole, ← type, List.append_assoc] at noConst
      exact noConst_front parameter.type _ noConst
    · rw [plain] at isConst
      cases isConst
  exact {
    some_type := some_type
    trimmed := type ▸ Text.trimmed_trim front
    handles := type ▸ (AllAttached.front front behind (handles.back lead _)).trim
    noDefault := fun member => noDefault (by
      rw [split, shape]
      exact List.mem_append_right _ (List.mem_append_left _ (inFront '=' member)))
    noReference := fun member => noReference (inFront '&' member)
    noConst := noConst
    nameable := nameable
    default := fun value some => defaultOf_some _ value (default.symm.trans some)
  }

/-- A parameter that was read from one line is rendered in one line. -/
theorem parse?_oneLine (text : Text) (parameter : Parameter) (read : parse? text = some parameter)
    (oneLine : '\n' ∉ text) :
    '\n' ∉ parameter.type ∧ ∀ value, parameter.default = some value → '\n' ∉ value := by
  obtain ⟨inner, const, name, _, nameable, default⟩ := parse?_parts text parameter read
  obtain ⟨front, behind, shape, type, _, _⟩ := splitName_type inner _ _ _ name nameable
  constructor
  · intro member
    have inInner : '\n' ∈ inner := by
      rw [shape]
      exact List.mem_append_left _ (Text.of_mem_trim _ _ (type ▸ member))
    have inDeclared : '\n' ∈ attachHandles (Text.trim (text.takeWhile (· != '='))) := by
      rcases splitConst_cases _ inner _ const with ⟨_, same, _⟩ | ⟨_, gap, same⟩
      · exact same ▸ inInner
      · rw [same]
        exact List.mem_append_right _ (List.mem_append_right _ inInner)
    rcases attachHandles_chars _ _ inDeclared with inside | space
    · exact oneLine ((List.takeWhile_prefix _).mem (Text.of_mem_trim _ _ inside))
    · cases space
  · intro value some member
    rw [some] at default
    have inDefault := defaultOf_chars _ value default.symm '\n' member
    exact oneLine ((List.dropWhile_suffix _).mem inDefault)

def constText (parameter : Parameter) : Text := if parameter.isConst then "const ".toList else []

def nameTail (parameter : Parameter) : Text := if parameter.hasName then ' ' :: parameter.name else []

def behindType (parameter : Parameter) : Text :=
  (if parameter.passing = .byValue then [] else ' ' :: parameter.passing.mark) ++ parameter.nameTail

theorem declaredText_shape (parameter : Parameter) :
    parameter.declaredText = parameter.constText ++ (parameter.type ++ parameter.behindType) := by
  simp only [declaredText, constText, behindType, nameTail, List.append_assoc]

theorem passing_word (passing : Passing) (marked : passing ≠ .byValue) :
    ∃ word, passing.mark = '&' :: word ∧ Passing.ofWord? word = some passing ∧ word ≠ [] ∧
      ∀ c ∈ word, isPlainChar c = true := by
  cases passing with
  | byValue => exact absurd rfl marked
  | input => exact ⟨"in".toList, rfl, by decide, by decide, by decide⟩
  | output => exact ⟨"out".toList, rfl, by decide, by decide, by decide⟩
  | inputOutput => exact ⟨"inout".toList, rfl, by decide, by decide, by decide⟩

theorem nameTail_unnamed (parameter : Parameter) (unnamed : parameter.name = []) :
    parameter.nameTail = [] := by
  simp [nameTail, hasName, unnamed]

theorem nameTail_named (parameter : Parameter) (named : parameter.name ≠ []) :
    parameter.nameTail = ' ' :: parameter.name := by
  simp [nameTail, hasName, named]

theorem behindType_value (parameter : Parameter) (value : parameter.passing = .byValue) :
    parameter.behindType = parameter.nameTail := by
  rw [behindType, if_pos value, List.nil_append]

theorem behindType_marked (parameter : Parameter) (marked : parameter.passing ≠ .byValue) :
    parameter.behindType = ' ' :: (parameter.passing.mark ++ parameter.nameTail) := by
  rw [behindType, if_neg marked, List.cons_append]

theorem behindType_empty (parameter : Parameter) :
    parameter.behindType = [] ↔ parameter.passing = .byValue ∧ parameter.name = [] := by
  by_cases value : parameter.passing = .byValue
  · by_cases unnamed : parameter.name = []
    · simp [behindType_value, nameTail_unnamed, value, unnamed]
    · simp [behindType_value, nameTail_named, value, unnamed]
  · simp [behindType_marked, value]

theorem behindType_named (parameter : Parameter) (named : Text.isIdentifier parameter.name = true) :
    parameter.behindType ≠ [] := by
  rw [Ne, behindType_empty]
  exact fun empty => (Text.identifier_chars _ named).1 empty.2

theorem behindType_spaced (parameter : Parameter) (some_char : parameter.behindType ≠ []) :
    ∃ rest, parameter.behindType = ' ' :: rest := by
  by_cases value : parameter.passing = .byValue
  · rw [Ne, behindType_empty, not_and] at some_char
    exact ⟨_, (behindType_value parameter value).trans (nameTail_named parameter (some_char value))⟩
  · exact ⟨_, behindType_marked parameter value⟩

section
variable {parameter : Parameter} (nameable : Nameable parameter.name)
include nameable

theorem nameTail_trim : Text.trim parameter.nameTail = parameter.name := by
  by_cases unnamed : parameter.name = []
  · rw [nameTail_unnamed parameter unnamed, unnamed]
    rfl
  · have trimmed := Text.trim_gaps .one parameter.name .none
      (Text.trimmed_visible _ fun c member => name_not_blank c (nameable.chars c member))
    rw [nameTail_named parameter unnamed]
    simpa [Gap.one, Gap.none] using trimmed

theorem behindType_chars (c : Char) (member : c ∈ parameter.behindType) :
    c = ' ' ∨ c = '&' ∨ isPlainChar c = true ∨ isNameChar c = true := by
  rw [behindType, List.mem_append] at member
  rcases member with inMark | inTail
  · split at inMark
    · cases inMark
    · next marked =>
        obtain ⟨word, shape, _, _, plain⟩ := passing_word parameter.passing marked
        rw [shape, List.mem_cons, List.mem_cons] at inMark
        rcases inMark with rfl | rfl | inWord
        · exact .inl rfl
        · exact .inr (.inl rfl)
        · exact .inr (.inr (.inl (plain c inWord)))
  · rw [nameTail] at inTail
    split at inTail
    · rcases List.mem_cons.mp inTail with rfl | inName
      · exact .inl rfl
      · exact .inr (.inr (.inr (nameable.chars c inName)))
    · cases inTail

theorem behindType_free (c : Char)
    (other : c ∉ [' ', '&'] ∧ isPlainChar c = false ∧ isNameChar c = false) :
    c ∉ parameter.behindType := by
  intro member
  have kinds := behindType_chars nameable c member
  simp [other.2.1, other.2.2] at kinds
  simp [kinds] at other

theorem behindType_last (some_char : parameter.behindType ≠ []) :
    Stops isBlank parameter.behindType.reverse := by
  by_cases unnamed : parameter.name = []
  · have marked : parameter.passing ≠ .byValue := fun value =>
      some_char ((behindType_empty parameter).mpr ⟨value, unnamed⟩)
    obtain ⟨word, mark, _, some_word, plain⟩ := passing_word parameter.passing marked
    have shape : parameter.behindType = [' ', '&'] ++ word := by
      rw [behindType_marked parameter marked, nameTail_unnamed parameter unnamed, mark]
      simp
    rw [shape, stops_reverse isBlank _ _ some_word]
    exact stops_apart isBlank _ fun c member => plain_not_blank c (plain c member)
  · rw [behindType, nameTail_named parameter unnamed, List.append_cons,
      stops_reverse isBlank _ _ unnamed]
    exact stops_apart isBlank _ fun c member => name_not_blank c (nameable.chars c member)

-- The type may be any text here, so it may also hold the `const` in front of the declared type.
variable (type : Text) (trimmed : type.Trimmed) (noReference : '&' ∉ type)
include trimmed noReference

theorem splitName_value (value : parameter.passing = .byValue) (named : parameter.name ≠ []) :
    splitName (type ++ parameter.behindType) = (type, parameter.passing, parameter.name) := by
  have identifier : Text.isIdentifier parameter.name = true := nameable.resolve_left named
  have spaced : Text.trim (type ++ [' ']) = type := Text.trim_gaps .none type .one trimmed
  have shape : type ++ parameter.behindType = (type ++ [' ']) ++ parameter.name := by
    simp [behindType_value, nameTail_named, value, named]
  have absent : '&' ∉ (type ++ [' ']) ++ parameter.name := by
    have inName : '&' ∉ parameter.name := fun member => absurd (nameable.chars '&' member) (by decide)
    simp [noReference, inName]
  have kept : ∀ c ∈ parameter.name, (!isBlank c) = true := by
    intro c member
    rw [name_not_blank c (nameable.chars c member)]
    rfl
  have stop : Stops (!isBlank ·) (type ++ [' ']).reverse := by simp [Stops]; decide
  rw [shape, splitName_plain _ absent]
  simp only [Text.takeEndWhile_run _ _ _ kept stop, Text.dropEndWhile_run _ _ _ kept stop]
  simp [identifier, spaced, value]

theorem splitName_marked (marked : parameter.passing ≠ .byValue) :
    splitName (type ++ parameter.behindType) = (type, parameter.passing, parameter.name) := by
  obtain ⟨word, mark, read, some_char, plain⟩ := passing_word parameter.passing marked
  have shape : type ++ parameter.behindType =
      (type ++ [' ']) ++ '&' :: (word ++ parameter.nameTail) := by
    simp [behindType_marked, marked, mark]
  have absent : '&' ∉ type ++ [' '] := by simp [noReference]
  have spaced : Text.trim (type ++ [' ']) = type := Text.trim_gaps .none type .one trimmed
  have stop : Stops isPlainChar parameter.nameTail := by
    rw [nameTail]
    split
    · exact (stops_cons isPlainChar ' ' _).mpr (by decide)
    · simp [Stops]
  have visible : Stops isBlank (word ++ parameter.nameTail) := by
    obtain ⟨first, more, split⟩ := List.exists_cons_of_ne_nil some_char
    rw [split, List.forall_mem_cons] at plain
    rw [split, List.cons_append, stops_cons]
    exact plain_not_blank first plain.1
  have whole : Text.trimStart (word ++ parameter.nameTail) = word ++ parameter.nameTail :=
    Text.trimStart_gap .none _ visible
  have leading : Text.leadingWord (word ++ parameter.nameTail) = word :=
    Text.takeWhile_run isPlainChar word _ plain stop
  have reading := splitName_reference (type ++ [' ']) (word ++ parameter.nameTail) absent
  rw [whole, leading, read] at reading
  dsimp only at reading
  rwa [Text.dropWhile_run isPlainChar word _ plain stop, spaced, nameTail_trim nameable, ← shape]
    at reading

/-- What is rendered behind a type is told apart from it. -/
theorem splitName_behind (some_char : parameter.behindType ≠ []) :
    splitName (type ++ parameter.behindType) = (type, parameter.passing, parameter.name) := by
  by_cases value : parameter.passing = .byValue
  · refine splitName_value nameable type trimmed noReference value fun unnamed => some_char ?_
    exact (behindType_empty parameter).mpr ⟨value, unnamed⟩
  · exact splitName_marked nameable type trimmed noReference value

end

namespace Canonical

variable {parameter : Parameter} (canonical : parameter.Canonical)
include canonical

theorem stops_type (rest : Text) : Stops isBlank (parameter.type ++ rest) := by
  obtain ⟨first, more, shape⟩ := List.exists_cons_of_ne_nil canonical.some_type
  have stop := canonical.trimmed.first
  rw [shape] at stop ⊢
  exact (stops_cons isBlank first _).mpr ((stops_cons isBlank first more).mp stop)

theorem declared_first (rest : Text) : Stops isBlank (parameter.constText ++ (parameter.type ++ rest)) := by
  rw [constText]
  split
  · exact (stops_cons isBlank 'c' _).mpr (by decide)
  · exact canonical.stops_type rest

theorem front_trimmed : (parameter.constText ++ parameter.type).Trimmed where
  first := by
    have first := canonical.declared_first []
    rwa [List.append_nil] at first
  last := (stops_reverse isBlank _ _ canonical.some_type).mpr canonical.trimmed.last

theorem declared_trimmed : parameter.declaredText.Trimmed where
  first := by
    rw [declaredText_shape]
    exact canonical.declared_first parameter.behindType
  last := by
    rw [declaredText_shape, ← List.append_assoc]
    by_cases empty : parameter.behindType = []
    · rw [empty, List.append_nil]
      exact canonical.front_trimmed.last
    · exact (stops_reverse isBlank _ _ empty).mpr (behindType_last canonical.nameable empty)

theorem declared_some : parameter.declaredText ≠ [] := by
  rw [declaredText_shape]
  simp [canonical.some_type]

theorem declared_noDefault : '=' ∉ parameter.declaredText := by
  have const : '=' ∉ parameter.constText := by
    rw [constText]
    split <;> decide
  rw [declaredText_shape, List.mem_append, List.mem_append, not_or, not_or]
  exact ⟨const, canonical.noDefault, behindType_free canonical.nameable '=' (by decide)⟩

/-- A rendered parameter is cut at its default. -/
theorem render_span : ∃ (gap : Gap) (assigned : Text),
    parameter.render.span (· != '=') = (parameter.declaredText ++ gap.text, assigned) ∧
      defaultOf assigned = parameter.default := by
  have noDefault := canonical.declared_noDefault
  cases default : parameter.default with
  | none =>
      refine ⟨.none, [], ?_, rfl⟩
      rw [render_parts, default]
      exact Text.span_absent '=' _ (by simpa [defaultText] using noDefault)
  | some value =>
      obtain ⟨some_char, trimmed⟩ := canonical.default value default
      have kept : Text.trim (' ' :: value) = value := by
        simpa [Gap.one, Gap.none] using Text.trim_gaps .one value .none trimmed
      refine ⟨.one, '=' :: ' ' :: value, ?_, ?_⟩
      · have shape : parameter.render = (parameter.declaredText ++ [' ']) ++ '=' :: ' ' :: value := by
          simp [render_parts, default, defaultText]
        rw [shape]
        exact Text.span_first '=' _ _ (by simp [noDefault])
      · rw [defaultOf, kept]
        simp [some_char]

/-- A rendered parameter is read by its declaration, with handles attached. -/
theorem parse?_render_declared :
    parse? parameter.render =
      ofDeclared? (attachHandles parameter.declaredText) parameter.default := by
  obtain ⟨gap, assigned, split, default⟩ := canonical.render_span
  have trimmed : Text.trim (parameter.declaredText ++ gap.text) = parameter.declaredText :=
    Text.trim_gaps .none _ gap canonical.declared_trimmed
  rw [parse?_declared _ _ _ split, trimmed, default]

end Canonical

/-- A parameter that was read and whose rendered form reads in no other way: no name is found in a type
that stands alone, `const` is no type in front of more, and no handle is pulled onto it. -/
structure Legible (parameter : Parameter) : Prop extends Canonical parameter where
  whole : parameter.behindType = [] → splitName parameter.type = (parameter.type, .byValue, [])
  notConst : parameter.isConst = false → parameter.behindType ≠ [] → parameter.type ≠ "const".toList
  notHandle : parameter.isConst = true → parameter.type.head? ≠ some '@'

namespace Legible

variable {parameter : Parameter} (legible : parameter.Legible)
include legible

theorem declared_attached : attachHandles parameter.declaredText = parameter.declaredText := by
  have unmarked : '@' ∉ parameter.behindType := behindType_free legible.nameable '@' (by decide)
  have behind : AllAttached (parameter.type ++ parameter.behindType) :=
    .append _ _ legible.handles (.unmarked _ unmarked) (attached_unmarked _ unmarked)
  rw [declaredText_shape, constText]
  cases const : parameter.isConst with
  | false => exact behind.attached
  | true =>
      have apart : Attached (parameter.type ++ parameter.behindType) := by
        obtain ⟨first, more, shape⟩ := List.exists_cons_of_ne_nil legible.some_type
        have visible := (stops_cons isBlank first _).mp (shape ▸ legible.stops_type parameter.behindType)
        have notHandle := legible.notHandle const
        rw [shape] at notHandle ⊢
        simpa [Attached, isInlineBlank, visible] using notHandle
      exact (AllAttached.append _ _ (.unmarked _ (by decide)) behind apart).attached

/-- A type other than the word itself is not read as `const`. -/
theorem unqualified (plain : parameter.isConst = false) :
    (Text.after? "const".toList (parameter.type ++ parameter.behindType)).bind
      (Text.afterSome? isBlank) = none := by
  by_cases empty : parameter.behindType = []
  · rw [empty, List.append_nil]
    exact legible.noConst plain
  · obtain ⟨rest, shape⟩ := behindType_spaced parameter empty
    rw [shape]
    cases read : Text.after? "const".toList (parameter.type ++ ' ' :: rest) with
    | none => rfl
    | some behind =>
        obtain ⟨more, type, rfl⟩ := Text.after?_apart ' ' _ _ _ _ (by decide) read
        cases more with
        | nil => exact absurd (by rw [type, List.append_nil]) (legible.notConst plain empty)
        | cons first more =>
            have noConst := legible.noConst plain
            rw [type, Text.after?_append, Option.bind_some, Text.afterSome?] at noConst
            rw [Option.bind_some, List.cons_append, Text.afterSome?]
            split at noConst
            · cases noConst
            · next visible => rw [if_neg visible]

theorem splitConst_declared :
    splitConst parameter.declaredText =
      (parameter.isConst, parameter.type ++ parameter.behindType) := by
  rw [declaredText_shape, constText]
  cases const : parameter.isConst with
  | true => exact splitConst_const ⟨Gap.one, by decide⟩ _ (legible.stops_type _)
  | false => exact splitConst_none _ (legible.unqualified const)

theorem splitName_declared :
    splitName (parameter.type ++ parameter.behindType) =
      (parameter.type, parameter.passing, parameter.name) := by
  by_cases empty : parameter.behindType = []
  · obtain ⟨value, unnamed⟩ := (behindType_empty parameter).mp empty
    rw [empty, List.append_nil, value, unnamed]
    exact legible.whole empty
  · exact splitName_behind legible.nameable _ legible.trimmed legible.noReference empty

theorem parse?_render : parse? parameter.render = some parameter := by
  have named : ¬((!parameter.name.isEmpty && !Text.isIdentifier parameter.name) = true) := by
    rcases legible.nameable with empty | identifier
    · simp [empty]
    · simp [identifier]
  rw [legible.parse?_render_declared, legible.declared_attached, ofDeclared?, legible.splitConst_declared]
  dsimp only
  rw [legible.splitName_declared]
  simp [legible.some_type, named]

end Legible

structure Rendered (parameter : Parameter) : Prop extends Canonical parameter where
  named : Text.isIdentifier parameter.name = true
  notConst : parameter.type ≠ "const".toList
  notHandle : parameter.type.head? ≠ some '@'

namespace Rendered

variable {parameter : Parameter} (rendered : parameter.Rendered)
include rendered

theorem legible : parameter.Legible := {
  rendered with
  whole := fun empty => absurd empty (behindType_named parameter rendered.named)
  notConst := fun _ _ => rendered.notConst
  notHandle := fun _ => rendered.notHandle
}

theorem parse?_render : parse? parameter.render = some parameter := rendered.legible.parse?_render

end Rendered

end Parameter

end ScriptSense
