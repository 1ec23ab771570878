import ScriptSense.Proofs.Barrier
import ScriptSense.Proofs.Nesting
import ScriptSense.Script

/-!
Where the declarations of an outline stand. The outline is read from a text in which only the closed
blocks are empty, and its rules accept a line start of any indentation. So each declaration that is
reported has one place in the sanitized text, no closed block contains it, and whether it is at file
scope depends on the blocks that are still open and on the parentheses around it.
-/
namespace ScriptSense

/-- A text is plain, or a bracket follows its first plain run. -/
theorem Bracket.segments (bracket : Bracket) {motive : Text → Prop}
    (plain : ∀ text, (∀ c ∈ text, bracket.IsPlain c) → motive text)
    (segment : ∀ lead stop rest, (∀ c ∈ lead, bracket.IsPlain c) → ¬bracket.IsPlain stop →
      motive rest → motive (lead ++ stop :: rest)) (text : Text) : motive text := by
  suffices behind : ∀ lead, (∀ c ∈ lead, bracket.IsPlain c) → motive (lead ++ text) from behind [] nofun
  induction text with
  | nil =>
      intro lead plainLead
      rw [List.append_nil]
      exact plain lead plainLead
  | cons first rest ih =>
      intro lead plainLead
      by_cases here : bracket.IsPlain first
      · have longer := ih (lead ++ [first]) fun c member => by
          rcases List.mem_append.mp member with inLead | inFirst
          · exact plainLead c inLead
          · rwa [List.mem_singleton.mp inFirst]
        rwa [List.append_assoc] at longer
      · exact segment lead first rest plainLead here (ih [] nofun)

section Outside

variable {α : Type} {rule : Rule α} {bracket : Bracket}

def outer (bracket : Bracket) (depth : Nat) (seen : List (Sighting α)) : List (Sighting α) :=
  seen.filter fun seen => bracket.nesting depth seen.front = 0

theorem outer_append (depth : Nat) (left right : List (Sighting α)) :
    outer bracket depth (left ++ right) = outer bracket depth left ++ outer bracket depth right :=
  List.filter_append left right

theorem outer_behind (depth : Nat) (lead : Text) (seen : List (Sighting α)) :
    outer bracket depth (seen.map (Sighting.behind lead)) =
      (outer bracket (bracket.nesting depth lead) seen).map (Sighting.behind lead) := by
  simp only [outer, List.filter_map]
  congr 1
  exact List.filter_congr fun one _ => by
    simp only [Function.comp, Sighting.behind, Bracket.nesting_append]

theorem outer_plain (depth : Nat) (lead : Text) (plain : ∀ c ∈ lead, bracket.IsPlain c)
    (seen : List (Sighting α)) (inLead : ∀ one ∈ seen, one.front <+: lead) :
    outer bracket depth seen = if depth = 0 then seen else [] := by
  have level (one : Sighting α) (member : one ∈ seen) : bracket.nesting depth one.front = depth :=
    bracket.nesting_plain depth one.front fun c inFront => plain c ((inLead one member).subset inFront)
  split
  · next top => exact List.filter_eq_self.mpr fun one member => by rw [level one member, top]; rfl
  · next inside => exact List.filter_eq_nil_iff.mpr fun one member => by rw [level one member]; simpa

/-- A rule that reads past no bracket finds in the text outside of all groups what it finds outside of
all groups of the text. -/
theorem found_outside (bracket : Bracket) (opening : HaltsAt rule bracket.opening)
    (closing : HaltsAt rule bracket.closing) (text : Text) (depth : Nat) (before last : Option Char)
    (same : depth = 0 → last = before) :
    findFrom rule 0 last (bracket.outside depth text) =
      (outer bracket depth (sightingsFrom rule 0 before text)).map (·.found) := by
  induction text using bracket.segments generalizing depth before last with
  | plain text plain =>
      rw [bracket.outside_plain depth text plain,
        outer_plain depth text plain _ (sightingsFrom_front rule 0 before text)]
      split
      · next top => rw [found_sightingsFrom, same top]
      · rfl
  | segment lead stop rest plain mark ih =>
      have halts : HaltsAt rule stop := by
        by_cases opens : stop = bracket.opening
        · rwa [opens]
        · have closes : stop = bracket.closing := by
            by_contra other
            exact mark ⟨opens, other⟩
          rwa [closes]
      have later := ih (bracket.nestingStep depth stop) (some stop)
      have level := bracket.nesting_plain depth lead plain
      have fronts := sightingsFrom_front_concat rule 0 before lead stop
      rw [bracket.outside_append, bracket.outside_plain depth lead plain, level,
        bracket.outside_mark depth stop rest mark,
        (halts.settled lead).sightings_stop rest 0 (Nat.zero_le _) before, outer_append, outer_behind,
        outer_plain depth lead plain _ fronts, bracket.nesting_append, level, List.map_append, found_behind]
      by_cases top : depth = 0
      · rw [if_pos top, if_pos top, if_pos (Or.inl top), same top,
          (halts.settled lead).findFrom_stop _ 0 (Nat.zero_le _), found_sightingsFrom, later (some stop) fun _ => rfl]
        rfl
      · rw [if_neg top, if_neg top]
        by_cases closed : bracket.nestingStep depth stop = 0
        · rw [if_pos (Or.inr closed), List.nil_append, findFrom, halts.refuses]
          exact later (some stop) fun _ => rfl
        · rw [if_neg (by tauto)]
          exact later last fun outer => absurd outer closed

end Outside

theorem atLineStart_halts {α : Type} {rule : Text → Option (α × Text)} {stop : Char}
    (confined : Confined stop Prod.mk rule) (refuses : ∀ rest, rule (stop :: rest) = none) :
    HaltsAt (atLineStart rule) stop where
  confined before := by
    by_cases start : before = none ∨ before = some '\n'
    · have same : atLineStart rule before = rule := funext fun text => if_pos start
      rw [same]
      exact confined
    · have same : atLineStart rule before = fun _ => none := funext fun text => if_neg start
      rw [same]
      exact Confined.refuse
  refuses before rest := by rw [atLineStart, refuses, ite_self]

/-- What a rule reads up to a bracket is settled by the text in front of the bracket. -/
theorem plain_match {α : Type} {rule : Rule α} {bracket : Bracket}
    (halts : ∀ mark, ¬bracket.IsPlain mark → HaltsAt rule mark) (before : Option Char) (text after : Text)
    (found : α) (some_char : text ≠ []) (read : rule before text = some (found, after)) :
    ∃ run behind, text = run ++ behind ∧ run ≠ [] ∧ (∀ c ∈ run, bracket.IsPlain c) ∧
      ∀ other, other.head? = behind.head? → ∃ left, rule before (run ++ other) = some (found, left) := by
  let keep : Char → Bool := fun c => bracket.IsPlain c
  have split : text = text.takeWhile keep ++ text.dropWhile keep := List.takeWhile_append_dropWhile.symm
  refine ⟨text.takeWhile keep, text.dropWhile keep, split, ?_, fun c member => ?_, fun other head => ?_⟩
  · intro empty
    obtain ⟨first, rest, rfl⟩ := List.exists_cons_of_ne_nil some_char
    have mark : ¬bracket.IsPlain first := by
      intro plain
      rw [List.takeWhile_cons_of_pos (by simpa [keep] using plain)] at empty
      cases empty
    rw [(halts first mark).refuses] at read
    cases read
  · simpa [keep] using List.mem_takeWhile_imp member
  · cases shape : text.dropWhile keep with
    | nil =>
        rw [shape] at head split
        rw [List.head?_eq_none_iff.mp head, ← split]
        exact ⟨after, read⟩
    | cons stop rest =>
        have mark : ¬bracket.IsPlain stop := by
          have refused := List.head?_dropWhile_not keep text
          simpa [shape, keep] using refused
        rw [shape] at head split
        obtain ⟨more, rfl⟩ := List.head?_eq_some_iff.mp head
        rw [split] at read
        rcases (halts stop mark).confined before (text.takeWhile keep) with refused | ⟨same, tail, _, accepted⟩
        · rw [refused] at read
          cases read
        · rw [accepted] at read
          obtain ⟨rfl, _⟩ := Prod.mk.inj (Option.some.inj read)
          exact ⟨_, accepted more⟩

section Rules

variable (stop : Char) (ends : TypeSpelling.endsGeneric stop = true) (inside : stop ∉ [';', '='])
include ends inside

theorem globalName?_confined : Confined stop Prod.mk globalName? := by
  obtain ⟨notWord, notBlank⟩ := TypeSpelling.endsGeneric_apart stop ends
  have notInline : isInlineBlank stop = false := by simp [isInlineBlank, notBlank]
  have blanks := Text.dropWhile_confined isInlineBlank stop notInline
  have notSemicolon : stop ∉ [';'] := fun same => inside (List.mem_cons.mpr (Or.inl (List.mem_singleton.mp same)))
  have notEquals : stop ∉ ['='] := fun same => inside (List.mem_cons_of_mem _ same)
  have ended : Confined stop plainly fun text => (behind? ';' text).or (behind? '=' text) :=
    (Text.after?_confined [';'] stop notSemicolon).or (Text.after?_confined ['='] stop notEquals)
  have same : globalName? = fun text =>
      ((some (text.dropWhile isInlineBlank)).bind (Text.run? isWordChar)).bind fun split =>
        ((some (split.2.dropWhile isInlineBlank)).bind fun rest =>
          (behind? ';' rest).or (behind? '=' rest)).map fun rest => (split.1, rest) := by
    funext text
    simp only [globalName?, Option.bind_some]
    cases Text.run? isWordChar (text.dropWhile isInlineBlank) with
    | none => rfl
    | some split =>
        exact Option.map_eq_bind.symm
  rw [same]
  refine (blanks.bind fun _ => Text.run?_confined isWordChar stop notWord).bind fun name => ?_
  exact (blanks.bind fun _ => ended).map fun _ => ⟨name, fun text => rfl⟩

theorem globalRule_halts : HaltsAt globalRule stop := by
  obtain ⟨notWord, notBlank⟩ := TypeSpelling.endsGeneric_apart stop ends
  have notInline : isInlineBlank stop = false := by simp [isInlineBlank, notBlank]
  apply atLineStart_halts
  · have type := TypeSpelling.readConst?_confined stop ends isInlineBlank notInline
      (globalName?_confined stop ends inside)
    have same : (fun text : Text => (TypeSpelling.readConst? isInlineBlank globalName?
        (text.dropWhile isInlineBlank)).bind fun found =>
          some ((⟨found.1, found.2.1⟩ : Declaration), found.2.2)) = fun text =>
        ((some (text.dropWhile isInlineBlank)).bind
          (TypeSpelling.readConst? isInlineBlank globalName?)).map fun found =>
            ((⟨found.1, found.2.1⟩ : Declaration), found.2.2) :=
      funext fun text => Option.map_eq_bind.symm
    refine same ▸ ((Text.dropWhile_confined isInlineBlank stop notInline).bind fun _ => type).map
      fun found => ⟨⟨found.1, found.2⟩, fun text => rfl⟩
  · intro rest
    have unread := TypeSpelling.readConst?_silent isInlineBlank globalName? stop rest notWord
    rw [List.dropWhile_cons_of_neg (by simp [notInline]), unread]
    rfl

end Rules

def reported {α : Type} (rule : Rule α) (type : α → Text) (text : Text) : List (Sighting α) :=
  (sightings rule (Script.parse text).topLevel).filter fun seen =>
    Declaration.isPlausible (type seen.found)

def variablesSeen (text : Text) : List (Sighting Declaration) := reported globalRule (·.type) text

def functionsSeen (text : Text) : List (Sighting FunctionHeader) := reported functionRule (·.type) text

theorem found_reported {α : Type} (rule : Rule α) (type : α → Text) (text : Text) :
    (reported rule type text).map (·.found) =
      (findAll rule (Script.parse text).topLevel).filter fun found =>
        Declaration.isPlausible (type found) := by
  rw [reported, ← found_sightings, List.filter_map]
  rfl

/-- The variable is written behind the front in the sanitized text, where the folded text has it. -/
structure VariableAt (text : Text) (seen : Sighting Declaration) (front : Text) : Prop where
  folded : foldedText braces front = seen.front
  written : ∃ rest after, sanitize text = front ++ rest ∧
    globalRule front.getLast? rest = some (seen.found, after)

def headerLead (text : Text) : Text :=
  let typed := text.dropWhile isInlineBlank
  text.takeWhile isInlineBlank ++
    (typed.takeWhile (!isBlank ·) ++ (typed.dropWhile (!isBlank ·)).takeWhile isInlineBlank)

def nameFront (text : Text) (seen : Sighting FunctionHeader) : Text :=
  seen.front ++ headerLead ((Script.parse text).topLevel.drop seen.front.length)

structure FunctionAt (text : Text) (seen : Sighting FunctionHeader) (front : Text) : Prop where
  folded : foldedText braces front = nameFront text seen
  written : ∃ gap rest, (∀ c ∈ gap, isInlineBlank c = true) ∧
    sanitize text = front ++ (seen.found.name ++ (gap ++ '(' :: rest))

-- A variable is read up to the next brace, and the source has the same text up to there.
theorem variable_place (text : Text) (seen : Sighting Declaration)
    (member : seen ∈ sightings globalRule (Script.parse text).topLevel) :
    ∃ front run rest, RunAt braces (sanitize text) front run rest ∧
      (∀ c ∈ run, braces.IsPlain c) ∧ VariableAt text seen front := by
  obtain ⟨left, after, some_left, split, read⟩ := sightings_sound globalRule _ seen member
  have halts (mark : Char) (notPlain : ¬braces.IsPlain mark) : HaltsAt globalRule mark := by
    have listed : mark = '{' ∨ mark = '}' := by
      by_contra other
      exact notPlain (not_or.mp other)
    rcases listed with rfl | rfl
    · exact globalRule_halts '{' rfl (by decide)
    · exact globalRule_halts '}' rfl (by decide)
  obtain ⟨run, behind, shape, some_char, plain, settled⟩ :=
    plain_match halts _ left after seen.found some_left read
  rw [shape] at split
  obtain ⟨front, rest, place, folded, head⟩ :=
    folded_run braces braces_distinct (sanitize text) seen.front run behind plain some_char split
  obtain ⟨left, here⟩ := settled rest head
  refine ⟨front, run, rest, place, plain, folded, run ++ rest, left, place.split, ?_⟩
  rw [← foldedText_last braces front, folded]
  exact here

theorem functionRule_sound (before : Option Char) (text after : Text) (found : FunctionHeader)
    (read : functionRule before text = some (found, after)) :
    ∃ gap more, text = headerLead text ++ (found.name ++ (gap ++ '(' :: more)) ∧
      (∀ c ∈ found.name, isWordChar c = true) ∧ ∀ c ∈ gap, isInlineBlank c = true := by
  rw [functionRule, atLineStart] at read
  split at read
  · obtain ⟨⟨type, typed⟩, readType, read⟩ := Option.bind_eq_some_iff.mp read
    obtain ⟨named, spaced, read⟩ := Option.bind_eq_some_iff.mp read
    obtain ⟨⟨name, behind⟩, readName, read⟩ := Option.bind_eq_some_iff.mp read
    obtain ⟨inside, opened, read⟩ := Option.bind_eq_some_iff.mp read
    obtain ⟨rest, closed, read⟩ := Option.bind_eq_some_iff.mp read
    obtain ⟨rfl, rfl⟩ := Prod.mk.inj (Option.some.inj read)
    obtain ⟨splitType, some_type, typeChars, typeEnds⟩ := Text.run?_some _ _ type typed readType
    obtain ⟨splitGap, _⟩ := Text.afterSome?_some isInlineBlank typed named spaced
    obtain ⟨splitName, _, nameChars, _⟩ := Text.run?_some isWordChar named name behind readName
    have paren := Text.after?_some _ _ inside opened
    have lead : headerLead text = text.takeWhile isInlineBlank ++
        (type ++ typed.takeWhile isInlineBlank) := by
      simp only [headerLead, splitType]
      rw [Text.takeWhile_run _ type typed typeChars typeEnds,
        Text.dropWhile_run _ type typed typeChars typeEnds]
    have splitBehind : behind = behind.takeWhile isInlineBlank ++ '(' :: inside := by
      conv_lhs => rw [← List.takeWhile_append_dropWhile (p := isInlineBlank) (l := behind), paren]
      rfl
    have splitText : text = text.takeWhile isInlineBlank ++ (type ++ typed) := by
      rw [← splitType, List.takeWhile_append_dropWhile]
    refine ⟨behind.takeWhile isInlineBlank, inside, ?_, nameChars, fun c member =>
      List.mem_takeWhile_imp member⟩
    rw [lead, List.append_assoc, List.append_assoc, ← splitBehind, ← splitName, ← splitGap]
    exact splitText
  · cases read

theorem function_place (text : Text) (seen : Sighting FunctionHeader)
    (member : seen ∈ sightings functionRule (Script.parse text).topLevel) :
    ∃ front run rest, RunAt braces (sanitize text) front run rest ∧
      (∀ c ∈ run, braces.IsPlain c) ∧ FunctionAt text seen front := by
  obtain ⟨left, after, _, split, read⟩ := sightings_sound functionRule _ seen member
  obtain ⟨gap, more, shape, nameChars, inline⟩ := functionRule_sound _ left after seen.found read
  have plain : ∀ c ∈ seen.found.name ++ (gap ++ ['(']), braces.IsPlain c := by
    intro c inRun
    rw [List.mem_append, List.mem_append, List.mem_singleton] at inRun
    rcases inRun with inName | inGap | rfl
    · exact braces.plain_of_kept isWordChar ⟨rfl, rfl⟩ c (nameChars c inName)
    · exact braces.plain_of_kept isInlineBlank ⟨rfl, rfl⟩ c (inline c inGap)
    · decide
  have lead : nameFront text seen = seen.front ++ headerLead left := by
    rw [nameFront, split, List.drop_left]
  have folded : foldedText braces (sanitize text) =
      nameFront text seen ++ ((seen.found.name ++ (gap ++ ['('])) ++ more) := by
    have topLevel : foldedText braces (sanitize text) = seen.front ++ left := split
    rw [topLevel, lead]
    conv_lhs => rw [shape]
    simp only [List.append_assoc, List.cons_append, List.nil_append]
  obtain ⟨front, rest, place, here, _⟩ := folded_run braces braces_distinct (sanitize text) _ _ more plain
    (by simp) folded
  exact ⟨front, _, rest, place, plain, here, gap, rest, inline, by simpa using place.split⟩

theorem VariableAt.unique {text : Text} {seen : Sighting Declaration} {front other : Text}
    (place : VariableAt text seen front) (same : VariableAt text seen other) : front = other := by
  obtain ⟨rest, _, split, _⟩ := place.written
  obtain ⟨otherRest, _, otherSplit, _⟩ := same.written
  exact place_unique braces_distinct ⟨rest, split.symm⟩ ⟨otherRest, otherSplit.symm⟩
    (place.folded.trans same.folded.symm)

theorem FunctionAt.unique {text : Text} {seen : Sighting FunctionHeader} {front other : Text}
    (place : FunctionAt text seen front) (same : FunctionAt text seen other) : front = other := by
  obtain ⟨gap, rest, _, split⟩ := place.written
  obtain ⟨otherGap, otherRest, _, otherSplit⟩ := same.written
  exact place_unique braces_distinct ⟨_, split.symm⟩ ⟨_, otherSplit.symm⟩
    (place.folded.trans same.folded.symm)

def VariablesAtFileScope (text : Text) : Prop :=
  ∀ seen ∈ variablesSeen text, ∀ front, VariableAt text seen front →
    braces.nesting 0 front = 0 ∧ parens.nesting 0 (braces.emptied front) = 0

def FunctionsAtFileScope (text : Text) : Prop :=
  ∀ seen ∈ functionsSeen text, ∀ front, FunctionAt text seen front → braces.nesting 0 front = 0

/-- The variables found when the content of all blocks and of all parentheses is left out. -/
def fileScopeVariables (text : Text) : List Declaration :=
  (findAll globalRule (parens.emptied (braces.emptied (sanitize text)))).filter fun found =>
    Declaration.isPlausible found.type

def beforeOpenBlocks (text : Text) : Text := (fold braces (sanitize text)).base.reverse

def AtFileScope (text : Text) (seen : Sighting Declaration) : Prop :=
  seen.front <+: beforeOpenBlocks text ∧ parens.nesting 0 seen.front = 0

instance (text : Text) (seen : Sighting Declaration) : Decidable (AtFileScope text seen) :=
  inferInstanceAs (Decidable (_ ∧ _))

-- An open block ends the search in front of it, so what is sighted there does not depend on it.
theorem sightings_atFileScope (text : Text) :
    (sightings globalRule (Script.parse text).topLevel).filter (AtFileScope text ·) =
      outer parens 0 (sightings globalRule (braces.emptied (sanitize text))) := by
  have within (seen : List (Sighting Declaration))
      (inFront : ∀ one ∈ seen, one.front <+: beforeOpenBlocks text) :
      seen.filter (AtFileScope text ·) = outer parens 0 seen :=
    List.filter_congr fun one member => by simp [AtFileScope, inFront one member]
  have topLevel : (Script.parse text).topLevel = foldedText braces (sanitize text) := rfl
  rcases foldedText_outer braces (sanitize text) with ⟨none_open, same⟩ | ⟨more, folded, outside⟩
  · rw [topLevel, same]
    apply within
    have whole : foldedText braces (sanitize text) = beforeOpenBlocks text := by
      rw [foldedText, Folded.text, none_open]
      exact List.append_nil _
    rw [whole]
    exact sightingsFrom_front globalRule 0 none _
  · have halts := globalRule_halts braces.opening rfl (by decide)
    rw [← beforeOpenBlocks] at folded outside
    rw [topLevel, folded, outside, sightings,
      (halts.settled _).sightings_stop more 0 (Nat.zero_le _) none, List.filter_append, ← sightings,
      within, List.filter_eq_nil_iff.mpr, List.append_nil]
    · intro one member
      obtain ⟨seen, _, rfl⟩ := List.mem_map.mp member
      have beyond : ¬(seen.behind (beforeOpenBlocks text ++ [braces.opening])).front <+:
          beforeOpenBlocks text := by
        intro inFront
        have length := inFront.length_le
        rw [Sighting.behind, List.length_append, List.length_append, List.length_singleton] at length
        omega
      simp [AtFileScope, beyond]
    · exact sightingsFrom_front_concat globalRule 0 none _ _

theorem fileScopeVariables_seen (text : Text) :
    fileScopeVariables text = ((variablesSeen text).filter (AtFileScope text ·)).map (·.found) := by
  have outside := found_outside parens (globalRule_halts '(' rfl (by decide))
    (globalRule_halts ')' rfl (by decide)) (braces.emptied (sanitize text)) 0 none none fun _ => rfl
  rw [fileScopeVariables, findAll, Bracket.emptied, outside, ← sightings, ← sightings_atFileScope,
    List.filter_map, variablesSeen, reported, List.filter_comm]
  rfl

theorem VariableAt.atFileScope_iff {text : Text} {seen : Sighting Declaration} {front run rest : Text}
    (place : VariableAt text seen front) (stands : RunAt braces (sanitize text) front run rest) :
    braces.nesting 0 front = 0 ∧ parens.nesting 0 (braces.emptied front) = 0 ↔ AtFileScope text seen := by
  rw [AtFileScope, ← place.folded, beforeOpenBlocks, ← stands.outer_iff]
  refine and_congr_right fun outer => ?_
  rw [foldedText_outside braces front outer]

theorem map_filter_eq_iff {α β : Type} (f : α → β) (keep : α → Bool) (items : List α) :
    items.map f = (items.filter keep).map f ↔ ∀ item ∈ items, keep item = true := by
  rw [← List.filter_eq_self]
  constructor
  · intro same
    have length := congrArg List.length same
    rw [List.length_map, List.length_map] at length
    exact List.filter_sublist.eq_of_length length.symm
  · intro all
    rw [all]

theorem variablesAtFileScope_iff (text : Text) :
    VariablesAtFileScope text ↔ (Script.parse text).globals = fileScopeVariables text := by
  have globals : (Script.parse text).globals = (variablesSeen text).map (·.found) :=
    (found_reported globalRule (·.type) text).symm
  rw [globals, fileScopeVariables_seen, map_filter_eq_iff]
  refine forall₂_congr fun seen member => ?_
  obtain ⟨front, run, rest, stands, _, place⟩ := variable_place text seen (List.mem_filter.mp member).1
  rw [decide_eq_true_iff, ← place.atFileScope_iff stands]
  constructor
  · intro all
    exact all front place
  · intro here other same
    rw [same.unique place]
    exact here

theorem functionsAtFileScope_iff (text : Text) :
    FunctionsAtFileScope text ↔
      ∀ seen ∈ functionsSeen text, nameFront text seen <+: beforeOpenBlocks text := by
  refine forall₂_congr fun seen member => ?_
  obtain ⟨front, run, rest, stands, _, place⟩ := function_place text seen (List.mem_filter.mp member).1
  rw [← place.folded, beforeOpenBlocks, ← stands.outer_iff]
  constructor
  · intro all
    exact all front place
  · intro here other same
    rw [same.unique place]
    exact here

/-- The variables and functions of the outline stand at places of the sanitized text that no closed
block contains. They all are at file scope exactly if the variables are those outside of the blocks and
parentheses, and the functions begin in front of the first block that is left open. -/
theorem reported_at_file_scope (text : Text) :
    (Script.parse text).globals = (variablesSeen text).map (·.found) ∧
      (Script.parse text).functions = (functionsSeen text).map (·.found) ∧
      (∀ seen ∈ variablesSeen text, ∃! front, VariableAt text seen front) ∧
      (∀ seen ∈ functionsSeen text, ∃! front, FunctionAt text seen front) ∧
      (∀ front rest, sanitize text = front ++ rest →
        (∃ seen ∈ variablesSeen text, VariableAt text seen front) ∨
          (∃ seen ∈ functionsSeen text, FunctionAt text seen front) →
        braces.StaysOpen front rest) ∧
      (VariablesAtFileScope text ↔ (Script.parse text).globals = fileScopeVariables text) ∧
      (FunctionsAtFileScope text ↔
        ∀ seen ∈ functionsSeen text, nameFront text seen <+: beforeOpenBlocks text) := by
  refine ⟨(found_reported globalRule (·.type) text).symm, (found_reported functionRule (·.type) text).symm,
    fun seen member => ?_, fun seen member => ?_, fun front rest split reported => ?_,
    variablesAtFileScope_iff text, functionsAtFileScope_iff text⟩
  · obtain ⟨front, _, _, _, _, place⟩ := variable_place text seen (List.mem_filter.mp member).1
    exact ⟨front, place, fun other same => same.unique place⟩
  · obtain ⟨front, _, _, _, _, place⟩ := function_place text seen (List.mem_filter.mp member).1
    exact ⟨front, place, fun other same => same.unique place⟩
  · have around (front' run rest' : Text) (stands : RunAt braces (sanitize text) front' run rest')
        (plain : ∀ c ∈ run, braces.IsPlain c) (same : front = front') : braces.StaysOpen front rest := by
      subst same
      have staysOpen := stands.staysOpen plain
      rwa [← List.append_cancel_left (split.symm.trans stands.split)] at staysOpen
    rcases reported with ⟨seen, member, place⟩ | ⟨seen, member, place⟩
    · obtain ⟨_, _, _, stands, plain, other⟩ := variable_place text seen (List.mem_filter.mp member).1
      exact around _ _ _ stands plain (place.unique other)
    · obtain ⟨_, _, _, stands, plain, other⟩ := function_place text seen (List.mem_filter.mp member).1
      exact around _ _ _ stands plain (place.unique other)

-- A parameter with a default on a line of its own reads like a variable, and so does a local variable
-- of the block that is not closed yet; its other statement reads like the header of a function.
theorem reported_from_open_block :
    let text := "void f(int a,\n    int b = 2)\n\x7b\n    int x;\n    Vec2f v(1, 2);\n".toList
    (Script.parse text).globals =
        [⟨"int".toList, "b".toList⟩, ⟨"int".toList, "x".toList⟩] ∧
      (Script.parse text).functions.map (·.name) = ["f".toList, "v".toList] ∧
      fileScopeVariables text = [] ∧ ¬VariablesAtFileScope text ∧ ¬FunctionsAtFileScope text := by
  intro text
  have globals : (Script.parse text).globals =
      [⟨"int".toList, "b".toList⟩, ⟨"int".toList, "x".toList⟩] := by decide +kernel
  have outside : fileScopeVariables text = [] := by decide +kernel
  have functions : ¬∀ seen ∈ functionsSeen text, nameFront text seen <+: beforeOpenBlocks text := by
    decide +kernel
  refine ⟨globals, by decide +kernel, outside, fun all => ?_, fun all => ?_⟩
  · have same := (variablesAtFileScope_iff text).mp all
    rw [globals, outside] at same
    cases same
  · exact functions ((functionsAtFileScope_iff text).mp all)

end ScriptSense
