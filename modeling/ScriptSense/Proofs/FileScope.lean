import ScriptSense.Proofs.Barrier
import ScriptSense.Proofs.LexicalScope

/-!
The scope in the last, open function of a file. Folding empties the bodies of the finished functions
and leaves their heads, so their parameters stay in scope. A file-scope variable is then hidden by
the last parameter of its name in a function finished behind it.
-/
namespace ScriptSense

structure Header where
  lead : Text
  parameters : Text
  trail : Gap
  lead_plain : ∀ c ∈ lead, braces.IsPlain c := by decide
  lead_unended : ∀ c ∈ lead, Declaration.endsName c = false := by decide
  parameters_plain : ∀ c ∈ parameters, braces.IsPlain c := by decide

namespace Header

def text (header : Header) : Text :=
  header.lead ++ '(' :: (header.parameters ++ ')' :: header.trail.text)

def declared (header : Header) : List Declaration := declarations (header.parameters ++ [')'])

end Header

/-- A declaration up to its `;`, or a function that is closed again. The groups of a declaration, as
an initializer list, are closed as well. -/
inductive FileItem where
  | declaration (text : Text) (balanced : braces.Balanced text)
  | function (header : Header) (body : Text) (balanced : braces.Balanced body)

namespace FileItem

def text : FileItem → Text
  | declaration text _ => text ++ [';']
  | function header body _ => header.text ++ ('{' :: body ++ ['}'])

def outer : FileItem → List Declaration
  | declaration text _ => declarations (foldedText braces text ++ [';'])
  | function _ _ _ => []

def parameters : FileItem → List Declaration
  | declaration _ _ => []
  | function header _ _ => header.declared

def declared (item : FileItem) : List Declaration := item.outer ++ item.parameters

def folded : FileItem → Text
  | declaration text _ => foldedText braces text ++ [';']
  | function header _ _ => header.text ++ ['{', '}']

end FileItem

structure OpenFile where
  items : List FileItem
  header : Header
  body : Text
  unclosed : (braces.depthAfter? 0 body).isSome = true

def latest? (name : Text) (found : List Declaration) : Option Declaration :=
  found.reverse.find? fun declared => declared.name = name

namespace OpenFile

def text (file : OpenFile) : Text :=
  file.items.flatMap FileItem.text ++ (file.header.text ++ '{' :: file.body)

def outer (file : OpenFile) : List Declaration := file.items.flatMap FileItem.outer

def parameters (file : OpenFile) : List Declaration := file.items.flatMap FileItem.parameters

def inner (file : OpenFile) : List Declaration :=
  file.header.declared ++ declarations (foldedText braces file.body)

def outer? (file : OpenFile) (globals : List Declaration) (name : Text) : Option Declaration :=
  (latest? name file.outer).or (globals.find? fun declared => declared.name = name)

end OpenFile

/-- A declaration of the name ends its shadow, a parameter of the name begins one. -/
def FileItem.shade (name : Text) (shadow : Option Declaration) (item : FileItem) :
    Option Declaration :=
  if (latest? name item.outer).isSome then none else (latest? name item.parameters).or shadow

def OpenFile.shadow? (file : OpenFile) (name : Text) : Option Declaration :=
  file.items.foldl (FileItem.shade name) none

theorem latest?_append (name : Text) (left right : List Declaration) :
    latest? name (left ++ right) = (latest? name right).or (latest? name left) := by
  rw [latest?, List.reverse_append, List.find?_append]
  rfl

theorem latest?_none (name : Text) (found : List Declaration)
    (absent : name ∉ found.map (·.name)) : latest? name found = none := by
  rw [latest?, List.find?_eq_none]
  intro declared member same
  rw [decide_eq_true_eq] at same
  exact absent (List.mem_map.mpr ⟨declared, List.mem_reverse.mp member, same⟩)

/-- The last declaration of a name in the items is its shadow, else its last variable. -/
theorem latest?_items (name : Text) (items : List FileItem) :
    latest? name (items.flatMap FileItem.declared) =
      (items.foldl (FileItem.shade name) none).or (latest? name (items.flatMap FileItem.outer)) := by
  -- The last item is looked at first, so the induction adds items at the end.
  induction items using List.reverseRecOn with
  | nil => rfl
  | append_singleton items item ih =>
      rw [List.flatMap_append, List.flatMap_singleton, latest?_append, ih, List.foldl_append,
        List.foldl_cons, List.foldl_nil,
        List.flatMap_append, List.flatMap_singleton, latest?_append, FileItem.declared,
        latest?_append, FileItem.shade]
      cases item with
      | function header body balanced => simp [FileItem.outer, latest?, Option.or_assoc]
      | declaration text balanced =>
          cases latest? name (FileItem.declaration text balanced).outer with
          | none => simp [FileItem.parameters, latest?]
          | some declared => simp [FileItem.parameters, latest?]

theorem declarations_stop (stop : Char) (ends : TypeSpelling.endsGeneric stop = true)
    (begins : Declaration.mayFollow stop = true) (lead rest : Text) :
    declarations (lead ++ stop :: rest) =
      declarations (lead ++ [stop]) ++ declarations rest := by
  rw [declarations, findAll, Declaration.scan_stop stop ends lead rest 0 (Nat.zero_le _) none,
    Declaration.scan_begins rest (some stop) begins, List.filter_append]
  rfl

theorem declarations_parameters (parameters : Text) (trail : Gap) (rest : Text) :
    declarations (parameters ++ ')' :: (trail.text ++ '{' :: rest)) =
      declarations (parameters ++ [')']) ++ declarations rest := by
  have behind : findFrom Declaration.rule 0 (some ')') (trail.text ++ '{' :: rest) =
      findAll Declaration.rule rest := by
    rw [Declaration.scan_run trail.text _ _ fun c member =>
      blank_not_word c (trail.blank c member), Declaration.scan_silent _ '{' rest rfl]
    exact Declaration.scan_begins rest (some '{') rfl
  rw [declarations, findAll,
    Declaration.scan_stop ')' rfl parameters _ 0 (Nat.zero_le _) none, behind, List.filter_append]
  rfl

theorem Header.declarations_body (header : Header) (rest : Text) :
    declarations (header.text ++ '{' :: rest) = header.declared ++ declarations rest := by
  -- The opening bracket ends no name, the closing one ends the name of the last parameter.
  have noLead : declarations (header.lead ++ ['(']) = [] := by
    have unended : ∀ c ∈ header.lead ++ ['('], Declaration.endsName c = false := by
      intro c member
      rcases List.mem_append.mp member with inLead | opening
      · exact header.lead_unended c inLead
      · rw [List.mem_singleton.mp opening]
        rfl
    rw [declarations, findAll, Declaration.scan_unended _ unended none]
    rfl
  have split : header.text ++ '{' :: rest = header.lead ++ '(' ::
      (header.parameters ++ ')' :: (header.trail.text ++ '{' :: rest)) := by
    simp [Header.text]
  rw [split, declarations_stop '(' rfl rfl, noLead, List.nil_append, declarations_parameters]
  rfl

theorem FileItem.declarations_folded (item : FileItem) (rest : Text) :
    declarations (item.folded ++ rest) = item.declared ++ declarations rest := by
  cases item with
  | declaration text balanced =>
      rw [folded, List.append_assoc, List.singleton_append, declarations_stop ';' rfl rfl]
      simp [declared, outer, parameters]
  | function header body balanced =>
      have closing : declarations ('}' :: rest) = declarations rest :=
        declarations_stop '}' rfl rfl [] rest
      rw [folded, List.append_assoc, List.cons_append, header.declarations_body,
        List.singleton_append, closing]
      simp [declared, outer, parameters]

theorem Header.folds (header : Header) : Folds braces header.text header.text := by
  apply Folds.plain
  intro c member
  simp only [text, List.mem_append, List.mem_cons] at member
  rcases member with inLead | rfl | inParameters | rfl | inTrail
  · exact header.lead_plain c inLead
  · decide
  · exact header.parameters_plain c inParameters
  · decide
  · exact brace_blank_plain c (header.trail.blank c inTrail)

theorem FileItem.folds (item : FileItem) : Folds braces item.text item.folded := by
  cases item with
  | declaration text balanced =>
      have semicolon : Folds braces [';'] [';'] := Folds.plain (by decide)
      exact (folds_foldedText braces braces_distinct text balanced).append semicolon
  | function header body balanced =>
      exact header.folds.append
        (Folds.group braces_distinct (folds_foldedText braces braces_distinct body balanced))

theorem folds_items (items : List FileItem) :
    Folds braces (items.flatMap FileItem.text) (items.flatMap FileItem.folded) := by
  induction items with
  | nil => exact Folds.nil
  | cons item items ih => exact item.folds.append ih

theorem declarations_items (items : List FileItem) (rest : Text) :
    declarations (items.flatMap FileItem.folded ++ rest) =
      items.flatMap FileItem.declared ++ declarations rest := by
  induction items with
  | nil => rfl
  | cons item items ih =>
      rw [List.flatMap_cons, List.append_assoc, item.declarations_folded, ih, List.flatMap_cons,
        List.append_assoc]

theorem OpenFile.locals (file : OpenFile) (globals : List Declaration) :
    (Scope.ofText file.text globals).locals =
      some (file.items.flatMap FileItem.declared ++ file.inner) := by
  -- The brace of the open body keeps the layers apart: in front of it all groups are closed.
  have folds := (folds_items file.items).append file.header.folds
  have split : file.text = (file.items.flatMap FileItem.text ++ file.header.text) ++
      braces.opening :: file.body := by
    simp [text, braces]
  have shown : (fold braces file.text).text braces =
      file.items.flatMap FileItem.folded ++
        (file.header.text ++ '{' :: foldedText braces file.body) := by
    rw [split, fold_unclosed folds file.body file.unclosed, Folded.above_text, Folded.append_text]
    simp [Folded.empty, Folded.text, foldedText, braces]
  have opened : (fold braces file.text).layers.isEmpty = false := by
    rw [split, fold_unclosed folds file.body file.unclosed]
    simp [Folded.above]
  simp [Scope.ofText, opened, shown, declarations_items, Header.declarations_body, inner]

namespace Scope

theorem mem_visibleNames (file : OpenFile) (globals : List Declaration) (name : Text) :
    name ∈ (ofText file.text globals).visibleNames ↔
      name ∈ file.outer.map (·.name) ∨ name ∈ file.parameters.map (·.name) ∨
        name ∈ file.inner.map (·.name) := by
  have split : name ∈ (file.items.flatMap FileItem.declared).map (·.name) ↔
      name ∈ file.outer.map (·.name) ∨ name ∈ file.parameters.map (·.name) := by
    simp only [OpenFile.outer, OpenFile.parameters, FileItem.declared, List.mem_map,
      List.mem_flatMap, List.mem_append]
    constructor
    · rintro ⟨declared, ⟨item, listed, isOuter | isParameter⟩, same⟩
      · exact Or.inl ⟨declared, ⟨item, listed, isOuter⟩, same⟩
      · exact Or.inr ⟨declared, ⟨item, listed, isParameter⟩, same⟩
    · rintro (⟨declared, ⟨item, listed, isOuter⟩, same⟩ | ⟨declared, ⟨item, listed, isParameter⟩, same⟩)
      · exact ⟨declared, ⟨item, listed, Or.inl isOuter⟩, same⟩
      · exact ⟨declared, ⟨item, listed, Or.inr isParameter⟩, same⟩
  rw [visibleNames, file.locals, Option.getD_some, List.mem_eraseDups, List.map_append,
    List.mem_append, split, or_assoc]

theorem typeOf?_outer (file : OpenFile) (globals : List Declaration) (name : Text)
    (absent : name ∉ file.inner.map (·.name)) :
    (ofText file.text globals).typeOf? name =
      ((file.shadow? name).or (file.outer? globals name)).map (·.type) := by
  have inner : latest? name (file.items.flatMap FileItem.declared ++ file.inner) =
      (file.shadow? name).or (latest? name file.outer) := by
    rw [latest?_append, latest?_none name file.inner absent, latest?_items]
    rfl
  have lookup : (ofText file.text globals).typeOf? name =
      ((latest? name (file.items.flatMap FileItem.declared ++ file.inner)).or
        (globals.find? fun declared => declared.name = name)).map (·.type) := by
    rw [typeOf?, file.locals]
    rfl
  rw [lookup, inner, Option.or_assoc]
  rfl

end Scope

namespace OpenFile

/-- The name stands for nothing but parameters of finished functions. -/
def OnlyFinished (file : OpenFile) (name : Text) : Prop :=
  name ∈ file.parameters.map (·.name) ∧
    name ∉ file.outer.map (·.name) ∧ name ∉ file.inner.map (·.name)

def HidesParameters (file : OpenFile) (globals : List Declaration) (name : Text) : Prop :=
  file.OnlyFinished name → name ∉ (Scope.ofText file.text globals).visibleNames

def FindsVariable (file : OpenFile) (globals : List Declaration) (name : Text) : Prop :=
  name ∉ file.inner.map (·.name) → ∀ declared, file.outer? globals name = some declared →
    (Scope.ofText file.text globals).typeOf? name = some declared.type

/-- A shadow over the file-scope variable has its type. -/
def Unshaded (file : OpenFile) (globals : List Declaration) (name : Text) : Prop :=
  name ∉ file.inner.map (·.name) → ∀ declared, file.outer? globals name = some declared →
    ∀ parameter, file.shadow? name = some parameter → parameter.type = declared.type

theorem hidesParameters_iff (file : OpenFile) (globals : List Declaration) (name : Text) :
    file.HidesParameters globals name ↔ ¬ file.OnlyFinished name := by
  constructor
  · intro invisible only
    exact invisible only
      ((Scope.mem_visibleNames file globals name).mpr (Or.inr (Or.inl only.1)))
  · intro notOnly only
    exact absurd only notOnly

theorem findsVariable_iff (file : OpenFile) (globals : List Declaration) (name : Text) :
    file.FindsVariable globals name ↔ file.Unshaded globals name := by
  constructor
  · intro found absent declared outer parameter shadow
    have type := found absent declared outer
    rw [Scope.typeOf?_outer file globals name absent, shadow] at type
    exact Option.some.inj type
  · intro unshaded absent declared outer
    rw [Scope.typeOf?_outer file globals name absent, outer]
    cases shadow : file.shadow? name with
    | none => rfl
    | some parameter => exact congrArg some (unshaded absent declared outer parameter shadow)

end OpenFile

structure ParameterForm where
  lead : Gap
  binding : Binding
  trail : Gap
  typed : Declaration.isPlausible binding.type.text = true := by decide

namespace ParameterForm

def text (form : ParameterForm) : Text := form.lead.text ++ (form.binding.text ++ form.trail.text)

def declaration (form : ParameterForm) : Declaration := form.binding.declaration

theorem scan (form : ParameterForm) (before : Option Char)
    (begins : before.all Declaration.mayFollow = true) (stop : Char)
    (ends : Declaration.endsName stop = true) (rest : Text) :
    findFrom Declaration.rule 0 before (form.text ++ stop :: rest) =
      form.declaration :: findFrom Declaration.rule 0 (some stop) rest := by
  rw [text, List.append_assoc, List.append_assoc, form.lead.scan]
  exact Declaration.scan_written form.binding _ (form.lead.begins before begins) form.trail stop ends
    rest

theorem scan_list (forms : List ParameterForm) (before : Option Char)
    (begins : before.all Declaration.mayFollow = true) :
    findFrom Declaration.rule 0 before ([','].intercalate (forms.map text) ++ [')']) =
      forms.map declaration := by
  have joined := Declaration.scan_joined text (fun form => [form.declaration]) forms
    (fun form _ before begins stop ends rest => form.scan before begins stop ends rest)
    before begins ')' rfl []
  rw [joined, List.map_eq_flatMap]
  exact List.append_nil _

end ParameterForm

theorem Header.declared_written (header : Header) (forms : List ParameterForm)
    (written : header.parameters = [','].intercalate (forms.map ParameterForm.text)) :
    header.declared = forms.map ParameterForm.declaration := by
  rw [declared, written, declarations, findAll, ParameterForm.scan_list forms none rfl,
    List.filter_eq_self]
  intro found member
  obtain ⟨form, _, rfl⟩ := List.mem_map.mp member
  exact form.typed

theorem FileItem.outer_written (text : Text) (balanced : braces.Balanced text) (form : VariableForm)
    (written : text ++ [';'] = form.text) :
    (FileItem.declaration text balanced).outer = [form.declaration] := by
  have plain : Folds braces text text := Folds.plain fun c member =>
    form.plain c (by rw [← written]; exact List.mem_append_left [';'] member)
  have found := form.scan none rfl []
  rw [List.append_nil] at found
  rw [outer, plain.folded, written, declarations, findAll, found]
  exact List.filter_cons_of_pos form.typed

namespace OpenFile

/-- A parameter of finished functions alone is always visible, and a file-scope variable is found
exactly if what hides it has its type. Variables and parameters are those that the file writes. -/
theorem finished_parameters (file : OpenFile) (globals : List Declaration) (name : Text) :
    (file.HidesParameters globals name ↔ ¬ file.OnlyFinished name) ∧
      (file.FindsVariable globals name ↔ file.Unshaded globals name) ∧
      (∀ text balanced, ∀ form : VariableForm, text ++ [';'] = form.text →
        (FileItem.declaration text balanced).outer = [form.declaration]) ∧
      ∀ header : Header, ∀ forms : List ParameterForm,
        header.parameters = [','].intercalate (forms.map ParameterForm.text) →
          header.declared = forms.map ParameterForm.declaration :=
  ⟨file.hidesParameters_iff globals name, file.findsVariable_iff globals name,
    FileItem.outer_written, Header.declared_written⟩

-- A finished function hides the variable with a parameter of the same type.
theorem finished_parameters_same_type :
    (Scope.ofText "int n; void g(int n, u8@ p) \x7b \x7d void f(int q) \x7b ".toList []).typeOf?
        "n".toList = some "int".toList ∧
      declarations "int n;".toList = [⟨"int".toList, "n".toList⟩] ∧
      declarations "int n, u8@ p)".toList =
        [⟨"int".toList, "n".toList⟩, ⟨"u8@".toList, "p".toList⟩] := by
  let int : TypeForm := .word { text := "int".toList } 0 0 0
  let handle : TypeForm := .word { text := "u8".toList } 0 0 1
  let n : VariableForm :=
    { constant := none, type := int, gap := .one, name := { text := ['n'] }, trail := .none }
  let p : VariableForm :=
    { constant := none, type := handle, gap := .one, name := { text := ['p'] }, trail := .none }
  let first : ParameterForm := { lead := .none, binding := n.binding, trail := .none }
  let second : ParameterForm := { lead := .one, binding := p.binding, trail := .none }
  let g : Header :=
    { lead := " void g".toList, parameters := "int n, u8@ p".toList, trail := .one }
  let f : Header := { lead := " void f".toList, parameters := "int q".toList, trail := .one }
  let file : OpenFile :=
    ⟨[.declaration "int n".toList (by decide), .function g [' '] (by decide)], f, [' '], rfl⟩
  let found : Declaration := n.declaration
  obtain ⟨_, finds, written, listed⟩ := finished_parameters file [] "n".toList
  have outer : file.outer? [] "n".toList = some found := by decide +kernel
  have shadow : file.shadow? "n".toList = some found := by decide +kernel
  have unshaded : file.Unshaded [] "n".toList := by
    intro _ declared isOuter parameter isShadow
    rw [outer] at isOuter
    rw [shadow] at isShadow
    rw [← Option.some.inj isOuter, ← Option.some.inj isShadow]
  exact ⟨finds.mpr unshaded (by decide +kernel) found outer,
    written "int n".toList (by decide) n rfl, listed g [first, second] rfl⟩

-- A finished function hides the variable with a parameter of another type.
theorem finished_parameters_leak :
    ∃ file : OpenFile,
      file.text = "int n; void g(string n, int p) \x7b \x7d void f(int q) \x7b ".toList ∧
        ¬ file.HidesParameters [⟨"int".toList, "n".toList⟩] "p".toList ∧
        ¬ file.FindsVariable [⟨"int".toList, "n".toList⟩] "n".toList := by
  let g : Header :=
    { lead := " void g".toList, parameters := "string n, int p".toList, trail := .one }
  let f : Header := { lead := " void f".toList, parameters := "int q".toList, trail := .one }
  let file : OpenFile :=
    ⟨[.declaration "int n".toList (by decide), .function g [' '] (by decide)], f, [' '], rfl⟩
  let globals : List Declaration := [⟨"int".toList, "n".toList⟩]
  have outer : file.outer? globals "n".toList = some ⟨"int".toList, "n".toList⟩ := by
    decide +kernel
  have type : (Scope.ofText file.text globals).typeOf? "n".toList = some "string".toList := by
    decide +kernel
  refine ⟨file, rfl, fun hides => ?_, fun finds => ?_⟩
  · have only : file.OnlyFinished "p".toList := by
      refine ⟨?_, ?_, ?_⟩ <;> decide +kernel
    exact hides only (by decide +kernel)
  · have int := finds (by decide +kernel) _ outer
    rw [type] at int
    exact absurd int (by decide)

end OpenFile

end ScriptSense
