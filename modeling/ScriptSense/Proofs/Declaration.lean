import ScriptSense.Script
import ScriptSense.Proofs.Folding
import ScriptSense.Proofs.TypeSpelling

/-!
Reading a declaration undoes writing it: `[const] type [&in | &out | &inout] name` with any blanks
between its parts, up to a character that ends the name. In a longer text the search finds it where
a declaration can begin and goes on behind the name; characters that begin no word are passed over.
-/
namespace ScriptSense

structure Break extends Gap where
  some_blank : text ≠ []

theorem Break.stops (gap : Break) (keep : Char → Bool)
    (apart : ∀ c, isBlank c = true → keep c = false) (rest : Text) :
    Stops keep (gap.text ++ rest) := by
  obtain ⟨first, blanks, shape⟩ := List.exists_cons_of_ne_nil gap.some_blank
  rw [shape, List.cons_append, stops_cons]
  exact apart first (gap.blank first (by simp [shape]))

def referenceModes : List Text := ["in", "out", "inout"].map String.toList

inductive Reference where
  | none
  | mode (lead : Gap) (word : Text) (listed : word ∈ referenceModes) (trail : Break)

def Reference.text : Reference → Text
  | none => []
  | mode lead word _ trail => '&' :: (lead.text ++ (word ++ trail.text))

structure NamePart where
  gap : Gap
  reference : Reference
  name : Word

def NamePart.text (part : NamePart) : Text :=
  part.gap.text ++ (part.reference.text ++ part.name.text)

def constText : Option Break → Text
  | none => []
  | some gap => "const".toList ++ gap.text

/-- A declaration as a script writes it, up to the end of its name. -/
structure Binding where
  constant : Option Break
  type : TypeForm
  gap : Gap
  reference : Reference
  name : Word
  apart : type.isBare = true → gap.text = [] → reference.text ≠ []
  proper : type.text ≠ "const".toList

namespace Binding

def nameText (binding : Binding) : Text :=
  binding.gap.text ++ (binding.reference.text ++ binding.name.text)

def text (binding : Binding) : Text :=
  (match binding.constant with
    | none => []
    | some gap => "const".toList ++ gap.text) ++ (binding.type.text ++ binding.nameText)

def declaration (binding : Binding) : Declaration := ⟨binding.type.text, binding.name.text⟩

def namePart (binding : Binding) : NamePart := ⟨binding.gap, binding.reference, binding.name⟩

theorem text_parts (binding : Binding) :
    binding.text = constText binding.constant ++ (binding.type.text ++ binding.namePart.text) := by
  rw [text]
  cases binding.constant <;> rfl

end Binding

theorem no_mark_of_kept (keep : Char → Bool)
    (refused : keep '@' = false ∧ keep '[' = false ∧ keep '<' = false) (c : Char)
    (kept : keep c = true) : c ≠ '@' ∧ c ≠ '[' ∧ c ≠ '<' :=
  ⟨kept_ne keep c '@' kept refused.1, kept_ne keep c '[' kept refused.2.1,
    kept_ne keep c '<' kept refused.2.2⟩

namespace Declaration

theorem endsName_cases (stop : Char) (ends : endsName stop = true) :
    stop ∈ [';', '=', ',', ')'] := by
  simpa [endsName, or_assoc] using ends

theorem endsName_not_word (stop : Char) (ends : endsName stop = true) : isWordChar stop = false :=
  (by decide : ∀ c ∈ [';', '=', ',', ')'], isWordChar c = false) stop (endsName_cases stop ends)

theorem endsName_not_blank (stop : Char) (ends : endsName stop = true) : isBlank stop = false :=
  (by decide : ∀ c ∈ [';', '=', ',', ')'], isBlank c = false) stop (endsName_cases stop ends)

theorem afterReference?_none (name : Word) (rest : Text) :
    afterReference? (name.text ++ rest) = some (name.text ++ rest) := by
  obtain ⟨first, later, shape, char⟩ := name.head
  have other : first ≠ '&' := kept_ne isWordChar first '&' char rfl
  rw [shape, List.cons_append, afterReference?.eq_2]
  rintro behind ⟨⟩
  exact other rfl

theorem mode_chars (word : Text) (listed : word ∈ referenceModes) :
    word ≠ [] ∧ ∀ c ∈ word, isWordChar c = true :=
  (by decide : ∀ word ∈ referenceModes, word ≠ [] ∧ ∀ c ∈ word, isWordChar c = true) word listed

theorem afterReference?_reference (reference : Reference) (name : Word) (rest : Text) :
    afterReference? (reference.text ++ (name.text ++ rest)) = some (name.text ++ rest) := by
  cases reference with
  | none => exact afterReference?_none name rest
  | mode lead word listed trail =>
      obtain ⟨some_char, chars⟩ := mode_chars word listed
      have blankStop : Stops isBlank (name.text ++ rest) := name.stops isBlank word_not_blank rest
      let modeWord : Word := ⟨word, some_char, chars⟩
      have lead_trimmed : Text.trimStart (lead.text ++ (word ++ (trail.text ++ (name.text ++ rest)))) =
          word ++ (trail.text ++ (name.text ++ rest)) :=
        Text.trimStart_gap lead _ (modeWord.stops isBlank word_not_blank _)
      have run : Text.run? isWordChar (word ++ (trail.text ++ (name.text ++ rest))) =
          some (word, trail.text ++ (name.text ++ rest)) :=
        Text.run?_run isWordChar word _ some_char chars (trail.stops isWordChar blank_not_word _)
      have trail_trimmed : Text.trimStart (trail.text ++ (name.text ++ rest)) = name.text ++ rest :=
        Text.trimStart_gap trail.toGap _ blankStop
      rw [referenceModes] at listed
      simp only [Reference.text, List.cons_append, List.append_assoc]
      simp only [afterReference?, lead_trimmed, run, Option.bind_eq_bind, Option.bind_some]
      rw [if_pos listed, trail_trimmed]

theorem stops_reference (reference : Reference) (name : Word) (rest : Text) :
    Stops isBlank (reference.text ++ (name.text ++ rest)) := by
  cases reference with
  | none => exact name.stops isBlank word_not_blank rest
  | mode lead word listed trail => exact (stops_cons isBlank '&' _).mpr rfl

theorem name?_written (part : NamePart) (trail : Gap) (stop : Char) (ends : endsName stop = true)
    (rest : Text) :
    name? (part.text ++ (trail.text ++ stop :: rest)) =
      some (part.name.text, trail.text ++ stop :: rest) := by
  let behind := trail.text ++ stop :: rest
  have start : Text.trimStart (part.text ++ behind) =
      part.reference.text ++ (part.name.text ++ behind) := by
    simp only [NamePart.text, List.append_assoc]
    exact Text.trimStart_gap part.gap _ (stops_reference _ _ _)
  have nameEnds : Stops isWordChar behind :=
    stops_append isWordChar trail.text _ (fun c member => blank_not_word c (trail.blank c member))
      ((stops_cons _ _ _).mpr (endsName_not_word stop ends))
  have name := Text.run?_run isWordChar part.name.text behind part.name.some_char
    part.name.chars nameEnds
  have trimmed : Text.trimStart behind = stop :: rest :=
    Text.trimStart_gap trail _ ((stops_cons _ _ _).mpr (endsName_not_blank stop ends))
  simp [name?, behind, start, afterReference?_reference, name, trimmed, ends]

theorem name?_closing (rest : Text) : name? ('>' :: rest) = none := by
  have trimmed : Text.trimStart ('>' :: rest) = '>' :: rest :=
    List.dropWhile_cons_of_neg (by decide)
  have plain : afterReference? ('>' :: rest) = some ('>' :: rest) := by
    rw [afterReference?.eq_2]
    rintro behind ⟨⟩
  have noWord : Text.run? isWordChar ('>' :: rest) = none :=
    Text.run?_stops isWordChar _ ((stops_cons _ _ _).mpr rfl)
  simp [name?, trimmed, plain, noWord]

end Declaration

/-- Behind a type stands a blank, the reference mark or, if there is neither, the name. -/
theorem NamePart.text_head (part : NamePart) (rest : Text) (c : Char)
    (head : (part.text ++ rest).head? = some c) :
    isBlank c = true ∨ c = '&' ∨
      isWordChar c = true ∧ part.gap.text = [] ∧ part.reference.text = [] := by
  obtain ⟨first, later, shape, char⟩ := part.name.head
  rw [text, shape] at head
  cases gap : part.gap.text with
  | cons blank blanks =>
      rw [gap, List.cons_append, List.cons_append, List.head?_cons, Option.some.injEq] at head
      subst head
      exact Or.inl (part.gap.blank blank (by simp [gap]))
  | nil =>
      rw [gap, List.nil_append] at head
      cases reference : part.reference with
      | none =>
          rw [reference, Reference.text, List.nil_append, List.cons_append, List.head?_cons,
            Option.some.injEq] at head
          subst head
          exact Or.inr (Or.inr ⟨char, rfl, rfl⟩)
      | mode lead word listed trail =>
          rw [reference, Reference.text, List.cons_append, List.cons_append, List.head?_cons,
            Option.some.injEq] at head
          exact Or.inr (Or.inl head.symm)

theorem followsType_of_head (form : TypeForm) (rest : Text)
    (head : ∀ c, rest.head? = some c →
      isBlank c = true ∨ c = '&' ∨ isWordChar c = true ∧ form.isBare = false) :
    FollowsType form rest where
  mark := by
    intro c first
    rcases head c first with blank | rfl | ⟨word, _⟩
    · exact no_mark_of_kept isBlank ⟨rfl, rfl, rfl⟩ c blank
    · decide
    · exact no_mark_of_kept isWordChar ⟨rfl, rfl, rfl⟩ c word
  word := by
    intro bare c first
    rcases head c first with blank | rfl | ⟨_, decorated⟩
    · exact blank_not_word c blank
    · rfl
    · rw [bare] at decorated
      cases decorated

theorem Binding.follows_type (binding : Binding) (rest : Text) :
    FollowsType binding.type (binding.namePart.text ++ rest) := by
  apply followsType_of_head
  intro c head
  rcases binding.namePart.text_head rest c head with blank | reference | ⟨word, gap, reference⟩
  · exact Or.inl blank
  · exact Or.inr (Or.inl reference)
  · refine Or.inr (Or.inr ⟨word, ?_⟩)
    cases bare : binding.type.isBare with
    | false => rfl
    | true => exact absurd reference (binding.apart bare gap)

theorem constText_chars (constant : Option Break) (c : Char) (member : c ∈ constText constant) :
    isWordChar c = true ∨ isBlank c = true := by
  cases constant with
  | none => cases member
  | some gap =>
      rcases List.mem_append.mp member with letter | blank
      · exact Or.inl (TypeSpelling.const_chars c letter)
      · exact Or.inr (gap.blank c blank)

theorem Reference.text_chars (reference : Reference) (c : Char) (member : c ∈ reference.text) :
    isWordChar c = true ∨ isBlank c = true ∨ c = '&' := by
  cases reference with
  | none => cases member
  | mode lead word listed trail =>
      simp only [Reference.text, List.mem_cons, List.mem_append] at member
      rcases member with mark | inLead | inWord | inTrail
      · exact Or.inr (Or.inr mark)
      · exact Or.inr (Or.inl (lead.blank c inLead))
      · exact Or.inl ((Declaration.mode_chars word listed).2 c inWord)
      · exact Or.inr (Or.inl (trail.blank c inTrail))

theorem Binding.text_chars (binding : Binding) (c : Char) (member : c ∈ binding.text) :
    isWordChar c = true ∨ isBlank c = true ∨ c ∈ ['@', '[', ']', '<', '>', '&'] := by
  simp only [text_parts, NamePart.text, List.mem_append] at member
  rcases member with inConst | inType | inGap | inReference | inName
  · rcases constText_chars _ c inConst with word | blank
    · exact Or.inl word
    · exact Or.inr (Or.inl blank)
  · rcases binding.type.text_chars c inType with word | mark
    · exact Or.inl word
    · exact Or.inr (Or.inr (List.mem_append_left ['&'] mark))
  · exact Or.inr (Or.inl (binding.gap.blank c inGap))
  · rcases binding.reference.text_chars c inReference with word | blank | rfl
    · exact Or.inl word
    · exact Or.inr (Or.inl blank)
    · simp
  · exact Or.inl (binding.name.chars c inName)

theorem Binding.text_plain (binding : Binding) (c : Char) (member : c ∈ binding.text) :
    braces.IsPlain c := by
  rcases binding.text_chars c member with word | blank | mark
  · exact braces.plain_of_kept isWordChar ⟨rfl, rfl⟩ c word
  · exact brace_blank_plain c blank
  · exact (by decide : ∀ c ∈ ['@', '[', ']', '<', '>', '&'], braces.IsPlain c) c mark

theorem Binding.text_some (binding : Binding) : binding.text ≠ [] := by
  obtain ⟨first, rest, shape, _⟩ := binding.type.text_head
  simp [text, shape]

theorem findFrom_skip {α : Type} (rule : Rule α) (lead rest : Text) (before : Option Char) :
    findFrom rule lead.length before (lead ++ rest) =
      findFrom rule 0 (lead.getLast?.or before) rest := by
  induction lead generalizing before with
  | nil => rfl
  | cons first lead ih =>
      rw [List.length_cons, List.cons_append, findFrom, ih, List.getLast?_cons]
      cases lead.getLast? <;> rfl

namespace Declaration

/-- A declaration is read if its type is, with its name behind it. -/
theorem rule_read (before : Option Char) (begins : before.all mayFollow = true)
    (constant : Option Break) (type behind name rest : Text)
    (stop : Stops isBlank (type ++ behind))
    (noConst : (Text.after? "const".toList (type ++ behind)).bind (Text.afterSome? isBlank) = none)
    (read : TypeSpelling.read? name? (type ++ behind) = some (type, name, rest)) :
    rule before (constText constant ++ (type ++ behind)) = some (⟨type, name⟩, rest) := by
  have found : TypeSpelling.readConst? isBlank name? (constText constant ++ (type ++ behind)) =
      some (type, name, rest) := by
    cases constant with
    | none => exact TypeSpelling.readConst?_plain name? _ _ noConst read
    | some gap =>
        have split : constText (some gap) ++ (type ++ behind) =
            "const".toList ++ (gap.text ++ (type ++ behind)) := List.append_assoc _ _ _
        rw [split]
        exact TypeSpelling.readConst?_const name? gap.toGap gap.some_blank _ _ stop read
  rw [rule, if_pos begins, found]
  rfl

theorem rule_silent (before : Option Char) (first : Char) (rest : Text)
    (silent : isWordChar first = false) : rule before (first :: rest) = none := by
  simp [rule, TypeSpelling.readConst?_silent isBlank name? first rest silent]

theorem scan_silent (before : Option Char) (first : Char) (rest : Text)
    (silent : isWordChar first = false) :
    findFrom rule 0 before (first :: rest) = findFrom rule 0 (some first) rest := by
  rw [findFrom, rule_silent before first rest silent]

theorem scan_run (lead rest : Text) (before : Option Char)
    (silent : ∀ c ∈ lead, isWordChar c = false) :
    findFrom rule 0 before (lead ++ rest) = findFrom rule 0 (lead.getLast?.or before) rest := by
  induction lead generalizing before with
  | nil => rfl
  | cons first lead ih =>
      rw [List.cons_append, scan_silent before first _ (silent first List.mem_cons_self),
        ih (some first) fun c member => silent c (List.mem_cons_of_mem first member),
        List.getLast?_cons]
      cases lead.getLast? <;> rfl

-- The search goes on right behind the name, so the character that ends it can stand before the next
-- declaration.
theorem scan_read (before : Option Char) (text : Text) (some_char : text ≠ []) (trail : Gap)
    (stop : Char) (ends : endsName stop = true) (rest : Text) (found : Declaration)
    (read : rule before (text ++ (trail.text ++ stop :: rest)) =
      some (found, trail.text ++ stop :: rest)) :
    findFrom rule 0 before (text ++ (trail.text ++ stop :: rest)) =
      found :: findFrom rule 0 (some stop) rest := by
  obtain ⟨first, more, shape⟩ := List.exists_cons_of_ne_nil some_char
  have skipped : (more ++ (trail.text ++ stop :: rest)).length - (trail.text ++ stop :: rest).length =
      more.length := by simp
  rw [shape, List.cons_append] at read ⊢
  rw [findFrom, read]
  dsimp only
  rw [skipped, findFrom_skip, scan_run trail.text _ _ fun c member =>
    blank_not_word c (trail.blank c member), scan_silent _ stop rest (endsName_not_word stop ends)]

theorem scan_written (binding : Binding) (before : Option Char)
    (begins : before.all mayFollow = true) (trail : Gap) (stop : Char)
    (ends : endsName stop = true) (rest : Text) :
    findFrom rule 0 before (binding.text ++ (trail.text ++ stop :: rest)) =
      binding.declaration :: findFrom rule 0 (some stop) rest := by
  apply scan_read before binding.text binding.text_some trail stop ends rest
  have name := name?_written binding.namePart trail stop ends rest
  have follows := binding.follows_type (trail.text ++ stop :: rest)
  rw [binding.text_parts, List.append_assoc, List.append_assoc]
  exact rule_read before begins binding.constant _ _ _ _ (binding.type.stops_blank _)
    (TypeSpelling.no_const binding.type _ follows binding.proper)
    (TypeSpelling.read?_form name? binding.type _ _ follows name?_closing name)

/-- A list of pieces is searched piece by piece, if each of them is up to the character behind it. -/
theorem scan_joined {α : Type} (text : α → Text) (declared : α → List Declaration) (items : List α)
    (reads : ∀ item ∈ items, ∀ before : Option Char, before.all mayFollow = true →
      ∀ stop, endsName stop = true → ∀ rest,
        findFrom rule 0 before (text item ++ stop :: rest) =
          declared item ++ findFrom rule 0 (some stop) rest)
    (before : Option Char) (begins : before.all mayFollow = true) (stop : Char)
    (ends : endsName stop = true) (rest : Text) :
    findFrom rule 0 before ([','].intercalate (items.map text) ++ stop :: rest) =
      items.flatMap declared ++ findFrom rule 0 (some stop) rest := by
  induction items generalizing before with
  | nil => exact scan_silent before stop rest (endsName_not_word stop ends)
  | cons item items ih =>
      have here := reads item List.mem_cons_self before begins
      cases items with
      | nil =>
          rw [List.map_singleton, List.intercalate_singleton, here stop ends, List.flatMap_singleton]
      | cons next items =>
          have later := ih (fun other member => reads other (List.mem_cons_of_mem item member))
            (some ',') rfl
          rw [List.map_cons] at later ⊢
          rw [List.map_cons, List.intercalate_cons_cons, List.append_assoc, List.append_assoc,
            List.singleton_append, here ',' rfl, later, ← List.append_assoc]
          rfl

end Declaration

namespace Gap

theorem begins (gap : Gap) (before : Option Char)
    (begins : before.all Declaration.mayFollow = true) :
    (gap.text.getLast?.or before).all Declaration.mayFollow = true := by
  cases last : gap.text.getLast? with
  | none => exact begins
  | some c =>
      have blank := gap.blank c (List.mem_of_getLast? last)
      simp [Declaration.mayFollow, blank]

theorem scan (gap : Gap) (before : Option Char) (rest : Text) :
    findFrom Declaration.rule 0 before (gap.text ++ rest) =
      findFrom Declaration.rule 0 (gap.text.getLast?.or before) rest :=
  Declaration.scan_run gap.text rest before fun c member => blank_not_word c (gap.blank c member)

end Gap

end ScriptSense
