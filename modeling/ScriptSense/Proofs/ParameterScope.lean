import Mathlib.Data.List.Nodup
import ScriptSense.Proofs.Blanking
import ScriptSense.Proofs.FileScope
import ScriptSense.Proofs.ParameterList

/-!
The parameters of the open function in its scope. A parameter list is read twice: once as a
signature, and once by the search for declarations in front of the body.
-/
namespace ScriptSense

namespace ParameterText

/-- The declaration search finds the parameter: its mark is not a bare `&`, its name stands apart from
its type, the type is not a word that never names one, and behind no `>` inside of the type a name
and its end follow. -/
structure Readable (form : ParameterText) : Prop where
  marked : ∀ trail, form.reference ≠ .bare trail
  spaced : form.reference = .marked .none → form.gap.text ≠ []
  typed : Declaration.isPlausible form.type.text = true
  settled : ∀ lead behind, form.type.inside = lead ++ '>' :: behind →
    Declaration.name? ((TypeSpelling.takeHandles behind).2 ++ ['>']) = none

theorem name?_settled (form : ParameterText) (readable : form.Readable) (lead behind later : Text)
    (split : form.type.inside = lead ++ '>' :: behind) :
    Declaration.name? ((TypeSpelling.takeHandles behind).2 ++ '>' :: later) = none := by
  have confined := Declaration.name?_confined '>' (by decide) (by decide) (by decide)
  rcases confined (TypeSpelling.takeHandles behind).2 with refused | ⟨found, tail, _, accepted⟩
  · exact refused later
  · have unread := readable.settled lead behind split
    rw [accepted []] at unread
    cases unread

theorem rule_form (form : ParameterText) (readable : form.Readable) (before : Option Char)
    (begins : before.all Declaration.mayFollow = true) (trail : Gap) (stop : Char)
    (ends : Declaration.endsName stop = true) (rest : Text) :
    Declaration.rule before (form.text ++ (trail.text ++ stop :: rest)) =
      some (form.declaration, trail.text ++ stop :: rest) := by
  cases reference : form.reference with
  | bare trail => exact absurd reference (readable.marked trail)
  | marked mark =>
      have behind : form.behind = NamePart.text ⟨form.gap, mark, form.name⟩ := by
        rw [ParameterText.behind, reference]
        rfl
      have name : Declaration.name? (form.behind ++ (trail.text ++ stop :: rest)) =
          some (form.name.text, trail.text ++ stop :: rest) := by
        rw [behind]
        exact Declaration.name?_written _ trail stop ends rest
      rw [ParameterText.text, List.append_assoc, List.append_assoc]
      refine Declaration.rule_read before begins form.constant _ _ _ _ (form.stops_blank _)
        (form.noConst _) ?_
      cases type : form.type with
      | word typeName elementHandles pairs handles =>
          have follows := form.follows_word _ _ _ _ type (trail.text ++ stop :: rest)
          rw [TypeText.text, List.append_assoc,
            TypeSpelling.read?_word _ _ _ _ _ _ follows, name]
          rfl
      | array inside free handles =>
          have noHandle : ∀ c, (form.behind ++ (trail.text ++ stop :: rest)).head? = some c →
              c ≠ '@' := by
            intro c head
            rcases form.behind_head _ c head with blank | rfl | ⟨word, _, _⟩
            · exact kept_ne isBlank c '@' blank rfl
            · decide
            · exact kept_ne isWordChar c '@' word rfl
          have settled : ∀ lead behind, inside = lead ++ '>' :: behind → ∀ later,
              Declaration.name? ((TypeSpelling.takeHandles behind).2 ++ '>' :: later) = none := by
            intro lead behind split later
            exact form.name?_settled readable lead behind later (by rw [type]; exact split)
          have read := TypeSpelling.read?_inside Declaration.name? inside handles _ _ free noHandle
            settled name
          simpa [TypeText.text] using read

theorem text_some (form : ParameterText) : form.text ≠ [] := by
  obtain ⟨last, ends, _⟩ := form.text_last
  rintro empty
  rw [empty] at ends
  cases ends

end ParameterText

namespace ListedText

theorem scan (item : ListedText) (readable : ∀ form ∈ item.forms, form.Readable)
    (before : Option Char) (begins : before.all Declaration.mayFollow = true) (stop : Char)
    (ends : Declaration.endsName stop = true) (rest : Text) :
    findFrom Declaration.rule 0 before (item.text ++ stop :: rest) =
      item.forms.map ParameterText.declaration ++ findFrom Declaration.rule 0 (some stop) rest := by
  cases item with
  | blank gap =>
      rw [text, gap.scan, Declaration.scan_silent _ stop rest (Declaration.endsName_not_word stop ends)]
      rfl
  | parameter lead form trail =>
      have readableForm := readable form (List.mem_singleton_self form)
      rw [text, List.append_assoc, List.append_assoc, lead.scan]
      exact Declaration.scan_read _ form.text form.text_some trail stop ends rest form.declaration
        (form.rule_form readableForm _ (lead.begins before begins) trail stop ends rest)

theorem scan_list (items : List ListedText)
    (readable : ∀ form ∈ items.flatMap forms, form.Readable) :
    findFrom Declaration.rule 0 none ([','].intercalate (items.map text) ++ [')']) =
      (items.flatMap forms).map ParameterText.declaration := by
  have joined := Declaration.scan_joined text (fun item => item.forms.map ParameterText.declaration)
    items (fun item member => item.scan fun form inForms =>
      readable form (List.mem_flatMap.mpr ⟨item, member, inForms⟩)) none rfl ')' rfl []
  rw [joined, List.map_flatMap]
  exact List.append_nil _

end ListedText

/-- A script up to the brace that opens the body of a function. In front of the parenthesis of its
parameters stands any text that ends outside of strings and comments. -/
structure OpenHeader where
  lead : Text
  list : Text
  gap : Gap
  outside : endsInTrivia lead = false
  code : ∀ c ∈ list, isCode c = true

namespace OpenHeader

def text (header : OpenHeader) : Text :=
  header.lead ++ '(' :: (header.list ++ ')' :: (header.gap.text ++ ['{']))

def scope (header : OpenHeader) (globals : List Declaration) : Scope :=
  Scope.ofText (sanitize header.text) globals

def found (header : OpenHeader) : List Declaration :=
  declarations (attachHandles header.list ++ [')'])

theorem sanitize_text (header : OpenHeader) :
    sanitize header.text = attachHandles (blankTrivia true header.lead) ++
      '(' :: (attachHandles header.list ++ ')' :: (header.gap.text ++ ['{'])) := by
  have code : ∀ c ∈ '(' :: (header.list ++ ')' :: (header.gap.text ++ ['{'])), isCode c = true := by
    intro c member
    simp only [List.mem_cons, List.mem_append, List.not_mem_nil, or_false] at member
    rcases member with rfl | inList | rfl | inGap | rfl
    · decide
    · exact header.code c inList
    · decide
    · exact blank_code c (header.gap.blank c inGap)
    · decide
  have opening (rest : Text) : attachHandles ('(' :: rest) = '(' :: attachHandles rest := by
    rw [attachHandles, if_neg (by decide)]
  have closing (rest : Text) : attachHandles (')' :: rest) = ')' :: attachHandles rest := by
    rw [attachHandles, if_neg (by decide)]
  rw [sanitize, text, blankTrivia_append header.lead '(' _ code (by decide) header.outside,
    attachHandles_stop '(' (by decide) (by decide), opening,
    attachHandles_stop ')' (by decide) (by decide), closing, attachHandles_gap]
  rfl

def earlier (header : OpenHeader) : List Declaration :=
  declarations (foldedText braces (attachHandles (blankTrivia true header.lead)) ++ ['('])

theorem locals (header : OpenHeader) (globals : List Declaration)
    (plain : ∀ c ∈ attachHandles header.list, TypeSpelling.endsGeneric c = false) :
    (header.scope globals).locals = some (header.earlier ++ header.found) := by
  let before := attachHandles (blankTrivia true header.lead)
  let closed := '(' :: (attachHandles header.list ++ ')' :: header.gap.text)
  have closedPlain : ∀ c ∈ closed, braces.IsPlain c := by
    have apart (c : Char) (free : TypeSpelling.endsGeneric c = false) : braces.IsPlain c := by
      constructor
      · rintro rfl
        cases free
      · rintro rfl
        cases free
    intro c member
    simp only [closed, List.mem_cons, List.mem_append] at member
    rcases member with rfl | inList | rfl | inGap
    · decide
    · exact apart c (plain c inList)
    · decide
    · exact brace_blank_plain c (header.gap.blank c inGap)
  have split : sanitize header.text = (before ++ closed) ++ ['{'] := by
    rw [header.sanitize_text]
    simp [before, closed]
  have opened : fold braces (sanitize header.text) =
      ⟨(fold braces (before ++ closed)).base, [] :: (fold braces (before ++ closed)).layers⟩ := by
    rw [split, fold, List.foldl_append]
    exact Folded.step_opening braces _
  have shown : (fold braces (sanitize header.text)).text braces =
      foldedText braces before ++
        '(' :: (attachHandles header.list ++ ')' :: (header.gap.text ++ ['{'])) := by
    rw [opened, Folded.open_text]
    change foldedText braces (before ++ closed) ++ ['{'] = _
    rw [foldedText_append (Folds.plain closedPlain)]
    simp [closed]
  have listed : declarations ((fold braces (sanitize header.text)).text braces) =
      header.earlier ++ header.found := by
    rw [shown, declarations_stop '(' rfl rfl, declarations_parameters, found]
    exact congrArg _ (List.append_nil _)
  rw [scope, Scope.ofText, listed, opened]
  rfl

def InScope (header : OpenHeader) (globals : List Declaration) : Prop :=
  ∀ parameter ∈ (Signature.parse header.list).parameters,
    (header.scope globals).typeOf? parameter.name = some parameter.type

end OpenHeader

theorem latest?_distinct (found : List Declaration) (distinct : (found.map (·.name)).Nodup)
    (declared : Declaration) (member : declared ∈ found) :
    latest? declared.name found = some declared := by
  cases read : latest? declared.name found with
  | none =>
      have absent := List.find?_eq_none.mp read declared (List.mem_reverse.mpr member)
      simp at absent
  | some other =>
      have listed : other ∈ found := List.mem_reverse.mp (List.mem_of_find?_eq_some read)
      have same : other.name = declared.name := by
        have accepted := List.find?_some read
        simpa using accepted
      rw [List.inj_on_of_nodup_map distinct listed member same]

theorem OpenHeader.typeOf?_found (header : OpenHeader) (globals : List Declaration)
    (plain : ∀ c ∈ attachHandles header.list, TypeSpelling.endsGeneric c = false)
    (distinct : (header.found.map (·.name)).Nodup) (declared : Declaration)
    (member : declared ∈ header.found) :
    (header.scope globals).typeOf? declared.name = some declared.type := by
  have last : latest? declared.name (header.earlier ++ header.found) = some declared := by
    rw [latest?_append, latest?_distinct header.found distinct declared member]
    rfl
  rw [Scope.typeOf?, header.locals globals plain]
  change ((latest? declared.name (header.earlier ++ header.found)).or _).map (·.type) = _
  rw [last]
  rfl

section Written

variable (header : OpenHeader) (forms : List ParameterText)
variable (written : WrittenList header.list forms)
include written

theorem OpenHeader.found_written (readable : ∀ form ∈ forms, form.Readable) :
    header.found = forms.map ParameterText.declaration := by
  obtain ⟨listed, texts, rfl⟩ := written.listed
  rw [found, declarations, findAll, texts, ListedText.scan_list listed readable, List.filter_eq_self]
  intro declared member
  obtain ⟨form, inForms, rfl⟩ := List.mem_map.mp member
  exact (readable form inForms).typed

theorem OpenHeader.parameter_written (readable : ∀ form ∈ forms, form.Readable)
    (parameter : Parameter) (member : parameter ∈ (Signature.parse header.list).parameters) :
    ∃ form ∈ forms, parameter = form.parameter := by
  obtain ⟨form, inForms, piece, parsed, index, trimmed, attached, read, rfl⟩ :=
    written.parameter_read parameter member
  refine ⟨form, inForms, ?_⟩
  by_cases reference : '&' ∈ form.type.inside
  · rw [form.parse?_inside piece trimmed attached reference] at read
    cases read
  · rw [form.parse?_written piece trimmed attached (readable form inForms).spaced reference] at read
    obtain rfl := Option.some.inj read
    exact form.named_parameter index

theorem OpenHeader.inScope_readable (globals : List Declaration)
    (distinct : (forms.map (·.name.text)).Nodup) (readable : ∀ form ∈ forms, form.Readable) :
    header.InScope globals := by
  intro parameter member
  obtain ⟨form, inForms, rfl⟩ := header.parameter_written forms written readable parameter member
  have found := header.found_written forms written readable
  have declared : form.declaration ∈ header.found := by
    rw [found]
    exact List.mem_map.mpr ⟨form, inForms, rfl⟩
  have distinctFound : (header.found.map (·.name)).Nodup := by
    rw [found, List.map_map]
    exact distinct
  exact header.typeOf?_found globals written.free distinctFound _ declared

end Written

end ScriptSense
