import ScriptSense.Proofs.AttachedList
import ScriptSense.Proofs.BracketOrder
import ScriptSense.Proofs.ManualLine
import ScriptSense.Proofs.Opaque

/-!
A function header as a line of the manual and as a line of a script. The manual takes the parameters
as they are written. A script is read when its blocks are empty and its handles attached, and its
header ends at the first parenthesis: a default that is a call hides the function, and one that is a
list in braces loses its elements.
-/
namespace ScriptSense

section Rule

variable (type name : Text) (some_type : type ≠ []) (visible : ∀ c ∈ type, isBlank c = false)
variable (some_name : name ≠ []) (word : ∀ c ∈ name, isWordChar c = true)
include some_type visible some_name word

theorem functionRule_parameters (inside : Text) :
    functionRule none (type ++ ' ' :: (name ++ '(' :: inside)) =
      (behind? ')' (inside.dropWhile fun c => c != '(' && c != ')')).map fun rest =>
        (⟨type, name, Signature.parse (inside.takeWhile fun c => c != '(' && c != ')')⟩, rest) := by
  have start : (type ++ ' ' :: (name ++ '(' :: inside)).dropWhile isInlineBlank =
      type ++ ' ' :: (name ++ '(' :: inside) := by
    obtain ⟨first, more, rfl⟩ := List.exists_cons_of_ne_nil some_type
    have shown := visible first List.mem_cons_self
    rw [List.cons_append, List.dropWhile_cons_of_neg (by simp [isInlineBlank, shown])]
  have typed : Text.run? (!isBlank ·) (type ++ ' ' :: (name ++ '(' :: inside)) =
      some (type, ' ' :: (name ++ '(' :: inside)) :=
    Text.run?_run _ type _ some_type (fun c member => by simp [visible c member])
      ((stops_cons _ ' ' _).mpr (by decide))
  have spaced : Text.afterSome? isInlineBlank (' ' :: (name ++ '(' :: inside)) =
      some (name ++ '(' :: inside) := by
    obtain ⟨first, more, rfl⟩ := List.exists_cons_of_ne_nil some_name
    have shown := word_not_blank first (word first List.mem_cons_self)
    rw [Text.afterSome?, if_pos (by decide), List.cons_append,
      List.dropWhile_cons_of_neg (by simp [isInlineBlank, shown])]
  have named : Text.run? isWordChar (name ++ '(' :: inside) = some (name, '(' :: inside) :=
    Text.run?_run isWordChar name _ some_name word ((stops_cons _ '(' inside).mpr (by decide))
  have opened : behind? '(' (('(' :: inside).dropWhile isInlineBlank) = some inside := by
    rw [List.dropWhile_cons_of_neg (by decide)]
    exact Text.after?_append ['('] inside
  rw [functionRule, atLineStart, if_pos (.inl rfl), start, typed]
  simp only [Option.bind_eq_bind, Option.bind_some, spaced, named, opened,
    List.span_eq_takeWhile_dropWhile]
  cases behind? ')' (inside.dropWhile fun c => c != '(' && c != ')') <;> rfl

/-- The list of a header ends at its first parenthesis. -/
theorem functionRule_read (list rest : Text) (free : ∀ c ∈ list, isParen c = false) :
    functionRule none (type ++ ' ' :: (name ++ '(' :: (list ++ ')' :: rest))) =
      some (⟨type, name, Signature.parse list⟩, rest) := by
  have inside : ∀ c ∈ list, (c != '(' && c != ')') = true := fun c member => by
    simpa [isParen] using free c member
  have stop : Stops (fun c => c != '(' && c != ')') (')' :: rest) :=
    (stops_cons _ ')' rest).mpr (by decide)
  rw [functionRule_parameters type name some_type visible some_name word,
    Text.takeWhile_run _ list _ inside stop, Text.dropWhile_run _ list _ inside stop]
  simp [behind?, Text.after?]

theorem functionRule_nested (front rest : Text) (free : ∀ c ∈ front, isParen c = false) :
    functionRule none (type ++ ' ' :: (name ++ '(' :: (front ++ '(' :: rest))) = none := by
  have inside : ∀ c ∈ front, (c != '(' && c != ')') = true := fun c member => by
    simpa [isParen] using free c member
  have stop : Stops (fun c => c != '(' && c != ')') ('(' :: rest) :=
    (stops_cons _ '(' rest).mpr (by decide)
  rw [functionRule_parameters type name some_type visible some_name word,
    Text.dropWhile_run _ front _ inside stop]
  rfl

end Rule

theorem functionRule_unopened (before : Option Char) (text : Text) (unopened : '(' ∉ text) :
    functionRule before text = none := by
  cases read : functionRule before text with
  | none => rfl
  | some found =>
      obtain ⟨gap, more, shape, _⟩ := functionRule_sound before text found.2 found.1 read
      refine absurd ?_ unopened
      rw [shape]
      simp

theorem findFrom_unopened (skip : Nat) (before : Option Char) (text : Text) (unopened : '(' ∉ text) :
    findFrom functionRule skip before text = [] := by
  induction text generalizing skip before with
  | nil => cases skip <;> rfl
  | cons first rest ih =>
      have later (skip : Nat) := ih skip (some first) fun member => unopened (List.mem_cons_of_mem first member)
      cases skip with
      | succ skip => exact later skip
      | zero =>
          rw [findFrom, functionRule_unopened before _ unopened]
          exact later 0

/-- No header is read from the rest of a line, nor from lines without an opening parenthesis. -/
theorem findFrom_lineRest (skip : Nat) (before : Char) (line rest : Text) (sameLine : before ≠ '\n')
    (oneLine : '\n' ∉ line) (unopened : '(' ∉ rest) :
    findFrom functionRule skip (some before) (line ++ rest) = [] := by
  induction line generalizing skip before with
  | nil => exact findFrom_unopened skip (some before) rest unopened
  | cons first line ih =>
      rw [List.mem_cons, not_or] at oneLine
      have later (skip : Nat) := ih skip first (Ne.symm oneLine.1) oneLine.2
      cases skip with
      | succ skip => exact later skip
      | zero =>
          have inLine : functionRule (some before) (first :: (line ++ rest)) = none :=
            if_neg (by simp [sameLine])
          rw [List.cons_append, findFrom, inLine]
          exact later 0

/-- Where only the first line opens a parenthesis, the one header that can be read is at its start. -/
theorem findAll_firstLine (line rest : Text) (some_char : line ≠ []) (oneLine : '\n' ∉ line)
    (unopened : '(' ∉ rest) :
    findAll functionRule (line ++ rest) = ((functionRule none (line ++ rest)).map (·.1)).toList := by
  obtain ⟨first, more, rfl⟩ := List.exists_cons_of_ne_nil some_char
  rw [List.mem_cons, not_or] at oneLine
  have others (skip : Nat) :=
    findFrom_lineRest skip first more rest (Ne.symm oneLine.1) oneLine.2 unopened
  rw [findAll, List.cons_append, findFrom]
  cases functionRule none (first :: (more ++ rest)) with
  | none => exact others 0
  | some found => exact congrArg (found.1 :: ·) (others _)

structure EmptyBody where
  before : Gap
  inside : Gap
  behind : Gap

namespace EmptyBody

def text (body : EmptyBody) : Text :=
  '\n' :: (body.before.text ++ '{' :: (body.inside.text ++ '}' :: body.behind.text))

def folded (body : EmptyBody) : Text :=
  '\n' :: (body.before.text ++ '{' :: '}' :: body.behind.text)

theorem folds (body : EmptyBody) : Folds braces body.text body.folded := by
  have plain (gap : Gap) : Folds braces gap.text gap.text :=
    .plain fun c member => brace_blank_plain c (gap.blank c member)
  have feed : Folds braces ['\n'] ['\n'] := .plain (by decide)
  have line := feed.append (plain body.before)
  have group := (plain body.inside).group braces_distinct
  have shape : body.text = '\n' :: body.before.text ++
      ((braces.opening :: body.inside.text ++ [braces.closing]) ++ body.behind.text) := by
    simp [text, braces]
  rw [shape]
  exact line.append (group.append (plain body.behind))

theorem folded_unopened (body : EmptyBody) : '(' ∉ body.folded := by
  have blank (gap : Gap) : '(' ∉ gap.text := fun member => absurd (gap.blank '(' member) (by decide)
  simp [folded, blank]

theorem text_unmarked (body : EmptyBody) : '@' ∉ body.text := by
  have blank (gap : Gap) : '@' ∉ gap.text := fun member => absurd (gap.blank '@' member) (by decide)
  simp [text, blank]

theorem text_code (body : EmptyBody) : ∀ c ∈ body.text, isCode c = true := by
  have blank (gap : Gap) : ∀ c ∈ gap.text, isCode c = true := fun c member =>
    blank_code c (gap.blank c member)
  intro c member
  simp only [text, List.mem_cons, List.mem_append] at member
  rcases member with rfl | before | rfl | inside | rfl | behind
  · decide
  · exact blank body.before c before
  · decide
  · exact blank body.inside c inside
  · decide
  · exact blank body.behind c behind

end EmptyBody

structure HeaderLine where
  type : TypeText
  name : Text
  list : Text
  compact : ∀ c ∈ type.text, isBlank c = false
  kept : blankTrivia true type.text = type.text
  ended : endsInTrivia type.text = false
  typed : Declaration.isPlausible type.text = true
  identifier : Text.isIdentifier name = true
  ascii : ∀ c ∈ name, isAscii c = true
  oneLine : '\n' ∉ list
  code : ∀ c ∈ list, isCode c = true
  orderly : nested [] list = true

namespace HeaderLine

variable (header : HeaderLine)

def text : Text := header.type.text ++ ' ' :: (header.name ++ '(' :: (header.list ++ [')']))

/-- The list that a script is read with: its blocks are empty and its handles attached. -/
def listed : Text := braces.emptied header.list

theorem name_word : header.name ≠ [] ∧ ∀ c ∈ header.name, isWordChar c = true := by
  obtain ⟨some_char, chars⟩ := Text.identifier_chars header.name header.identifier
  refine ⟨some_char, fun c member => ?_⟩
  have name := chars c member
  rw [isNameChar, if_pos (header.ascii c member)] at name
  rwa [isWordChar, if_pos (header.ascii c member)]

theorem some_type : header.type.text ≠ [] := by
  obtain ⟨first, rest, shape, _⟩ := header.type.text_head
  simp [shape]

theorem sanitized (body : EmptyBody) :
    sanitize (header.text ++ body.text) = header.type.text ++ ' ' ::
      (header.name ++ '(' :: (attachHandles header.list ++ ')' :: body.text)) := by
  have code : ∀ c ∈ ' ' :: (header.name ++ '(' :: (header.list ++ ')' :: body.text)), isCode c = true := by
    have name : ∀ c ∈ header.name, isCode c = true := by
      intro c member
      have word := header.name_word.2 c member
      simp [isCode, kept_ne isWordChar c '/' word rfl, kept_ne isWordChar c '"' word rfl,
        kept_ne isWordChar c '\'' word rfl]
    intro c member
    simp only [List.mem_cons, List.mem_append] at member
    rcases member with rfl | inName | rfl | inList | rfl | inBody
    · decide
    · exact name c inName
    · decide
    · exact header.code c inList
    · decide
    · exact body.text_code c inBody
  have shape : header.text ++ body.text =
      header.type.text ++ ' ' :: (header.name ++ '(' :: (header.list ++ ')' :: body.text)) := by
    simp [text]
  have attached : attachHandles (header.type.text ++ ' ' :: header.name) =
      header.type.text ++ ' ' :: header.name := by
    have unmarked : '@' ∉ ' ' :: header.name := by
      rw [List.mem_cons, not_or]
      exact ⟨by decide, fun member => absurd (header.name_word.2 '@' member) (by decide)⟩
    exact (AllAttached.append _ _ (.visible _ header.compact) (.unmarked _ unmarked)
      (attached_unmarked _ unmarked)).attached
  have lead : header.type.text ++ ' ' :: (header.name ++ '(' :: (header.list ++ ')' :: body.text)) =
      (header.type.text ++ ' ' :: header.name) ++ '(' :: (header.list ++ ')' :: body.text) := by
    simp
  rw [sanitize, shape, blankTrivia_append _ ' ' _ code (by decide) header.ended, header.kept, lead,
    attachHandles_apart '(' rfl (by decide) rfl, attachHandles_apart ')' rfl (by decide) rfl, attached,
    (AllAttached.unmarked _ body.text_unmarked).attached]
  simp

theorem topLevel (body : EmptyBody) :
    (Script.parse (header.text ++ body.text)).topLevel =
      header.type.text ++ ' ' ::
        (header.name ++ '(' :: (attachHandles header.listed ++ ')' :: body.folded)) := by
  have lead : ∀ c ∈ header.type.text ++ ' ' :: (header.name ++ ['(']), braces.IsPlain c := by
    intro c member
    simp only [List.mem_append, List.mem_cons] at member
    rcases member with inType | rfl | inName | rfl | none
    · have free := header.type.text_free c inType
      exact braces.plain_of_kept (!TypeSpelling.endsGeneric ·) ⟨rfl, rfl⟩ c (by simp [free])
    · decide
    · exact braces.plain_of_kept isWordChar ⟨rfl, rfl⟩ c (header.name_word.2 c inName)
    · decide
    · cases none
  have balanced : braces.Balanced (attachHandles header.list) :=
    balanced_attachHandles _ (nested_braces [] header.list header.orderly)
  have list := folds_balanced braces braces_distinct _ balanced
  have emptied : braces.emptied (attachHandles header.list) = attachHandles header.listed :=
    outside_attachHandles 0 header.list
  have close : Folds braces [')'] [')'] := .plain (by decide)
  have folds := (Folds.plain lead).append (list.append (close.append body.folds))
  have topLevel : (Script.parse (header.text ++ body.text)).topLevel =
      foldedText braces (sanitize (header.text ++ body.text)) := rfl
  have whole := folds.folded
  rw [emptied] at whole
  rw [topLevel, header.sanitized body]
  simpa using whole

def foldedLine : Text :=
  header.type.text ++ ' ' :: (header.name ++ '(' :: (attachHandles header.listed ++ [')']))

theorem foldedLine_oneLine : '\n' ∉ header.foldedLine := by
  have type : '\n' ∉ header.type.text := fun member =>
    absurd (header.compact '\n' member) (by decide)
  have name : '\n' ∉ header.name := fun member => absurd (header.name_word.2 '\n' member) (by decide)
  have list : '\n' ∉ attachHandles header.listed := by
    intro member
    rcases attachHandles_chars _ _ member with inside | space
    · exact header.oneLine (mem_outside braces 0 _ _ inside)
    · cases space
  simp [foldedLine, type, name, list]

theorem functions (body : EmptyBody) :
    (Script.parse (header.text ++ body.text)).functions =
      if '(' ∈ header.listed then []
      else [⟨header.type.text, header.name, (Signature.parse header.listed).attached⟩] := by
  have lines : (Script.parse (header.text ++ body.text)).topLevel = header.foldedLine ++ body.folded := by
    rw [header.topLevel body, foldedLine]
    simp
  have only := findAll_firstLine header.foldedLine body.folded (by simp [foldedLine])
    header.foldedLine_oneLine body.folded_unopened
  rw [← lines, header.topLevel body] at only
  obtain ⟨some_name, word⟩ := header.name_word
  rw [Script.functions, header.topLevel body, only]
  rcases nested_emptied header.list header.orderly with free | ⟨front, rest, split, free⟩
  · have unopened : '(' ∉ header.listed := fun member => absurd (free '(' member) (by decide)
    have attachedFree := attachHandles_every _ (by decide) header.listed free
    rw [functionRule_read _ _ header.some_type header.compact some_name word _ _ attachedFree,
      if_neg unopened, ← Signature.parse_attachHandles]
    simp [header.typed]
  · have opened : '(' ∈ header.listed := by
      rw [listed, split]
      exact List.mem_append_right _ List.mem_cons_self
    have attachedFree := attachHandles_every _ (by decide) front free
    have attached : attachHandles header.listed =
        attachHandles front ++ '(' :: attachHandles rest := by
      rw [listed, split, attachHandles_apart '(' rfl (by decide) rfl]
    rw [attached, List.append_assoc, List.cons_append,
      functionRule_nested _ _ header.some_type header.compact some_name word _ _ attachedFree,
      if_pos opened]
    rfl

/-- A header that the manual reads is read from a script without the contents of its blocks, with the
handles of its defaults attached, and not at all if a parenthesis is left in it. Both readings are the
same exactly if that changes nothing. -/
theorem read_in_script (header : HeaderLine) (body : EmptyBody) (line : FunctionLine)
    (read : Manual.functionLine? header.text = some line) (named : line.name = header.name)
    (global : line.qualifier = none) :
    let found := (Script.parse (header.text ++ body.text)).functions
    let documented : List FunctionHeader := [⟨header.type.text, header.name, line.signature⟩]
    line.type = header.type.text ∧ line.signature = Signature.parse header.list ∧
      found = (if '(' ∈ header.listed then []
        else [⟨header.type.text, header.name, (Signature.parse header.listed).attached⟩]) ∧
      (found = documented ↔ '(' ∉ header.listed ∧
        (Signature.parse header.listed).attached = Signature.parse header.list) ∧
      (header.listed = header.list → (found = documented ↔ '(' ∉ header.list ∧
        ∀ parameter ∈ (Signature.parse header.list).parameters, ∀ value,
          parameter.default = some value → Text.trim (attachHandles value) = value)) := by
  intro found documented
  have manual := Manual.functionLine?_read header.type.text header.name header.some_type header.compact
    header.identifier header.list header.oneLine line read named global
  have script : found = _ := header.functions body
  have signature : line.signature = Signature.parse header.list := by rw [manual]
  have same : found = documented ↔ '(' ∉ header.listed ∧
      (Signature.parse header.listed).attached = Signature.parse header.list := by
    rw [script]
    simp only [documented, signature]
    split
    · next opened => simp [opened]
    · next unopened => simp [unopened]
  refine ⟨by rw [manual], signature, script, same, fun blocks => ?_⟩
  rw [same, blocks, Signature.attached_same]

/-- A list in braces loses its elements; the handle of a declaration is attached in both readings. -/
theorem read_in_script_braces :
    let list := "CBlob @blob, int[] ids = \x7b1, 2\x7d, int n = 5".toList
    let emptied := "CBlob @blob, int[] ids = \x7b\x7d, int n = 5".toList
    let line := "void f(".toList ++ list ++ [')']
    Manual.functionLine? line = some ⟨none, "void".toList, ['f'], Signature.parse list⟩ ∧
      (Script.parse (line ++ "\n\x7b\n\x7d".toList)).functions =
        [⟨"void".toList, ['f'], Signature.parse emptied⟩] ∧
      (Signature.parse emptied).arity = 3 ∧ Signature.parse emptied ≠ Signature.parse list := by
  intro list emptied line
  let header : HeaderLine := {
    type := .word { text := "void".toList } 0 0 0
    name := ['f']
    list := list
    compact := by decide
    kept := by decide
    ended := by decide
    typed := by decide
    identifier := by decide
    ascii := by decide
    oneLine := by decide
    code := by decide
    orderly := by decide
  }
  have read : Manual.functionLine? header.text =
      some ⟨none, "void".toList, ['f'], Signature.parse list⟩ := by decide +kernel
  have found := (read_in_script header ⟨.none, ⟨['\n'], by decide⟩, .none⟩ _ read rfl rfl).2.2.1
  have attached : (Signature.parse emptied).attached = Signature.parse emptied := by decide +kernel
  refine ⟨read, found.trans ?_, by decide, by decide⟩
  have listed : header.listed = emptied := by decide
  rw [listed, if_neg (by decide), attached]
  rfl

/-- A call in a default is read by the manual, and hides the function in a script. -/
theorem call_hides_function :
    let list := "Vec2f p = Vec2f(0, 0), int n".toList
    let line := "void f(".toList ++ list ++ [')']
    let documented : FunctionLine := ⟨none, "void".toList, ['f'], Signature.parse list⟩
    let found := (Script.parse (line ++ "\n\x7b\n\x7d\n".toList)).functions
    nested [] list = true ∧ Manual.functionLine? line = some documented ∧ found = [] ∧
      found ≠ [⟨documented.type, documented.name, documented.signature⟩] := by
  decide +kernel

end HeaderLine

end ScriptSense
