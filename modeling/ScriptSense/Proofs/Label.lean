import ScriptSense.Proofs.ManualLine
import ScriptSense.Proofs.RenderedList

/-!
Labels are lines of the manual. The label of an overload is read back as a function, a hook and a
method with the type, the name and the parameters that it shows.
-/
namespace ScriptSense

theorem Text.lines_single (text : Text) (some_char : text ≠ []) (oneLine : '\n' ∉ text) :
    lines text = [text] := by
  induction text with
  | nil => exact absurd rfl some_char
  | cons first rest ih =>
      rw [List.mem_cons, not_or] at oneLine
      cases rest with
      | nil =>
          rw [lines]
          · rfl
          · exact Ne.symm oneLine.1
          · rintro _ _ ⟨⟩
      | cons second more =>
          have later := ih (List.cons_ne_nil second more) oneLine.2
          rw [List.mem_cons, not_or] at oneLine
          rw [lines, later]
          · exact Ne.symm oneLine.1
          · intro others _ same
            exact oneLine.2.1 (List.cons.inj same).1.symm

namespace Manual

theorem declarationLines_single (line : Text) (some_char : line ≠ []) (oneLine : '\n' ∉ line)
    (trimmed : line.Trimmed) (declares : isComment line = false) : declarationLines line = [line] := by
  rw [declarationLines, Text.lines_single line some_char oneLine, List.map_singleton,
    Text.trim_trimmed line trimmed]
  simp [some_char, declares]

structure Closes (list ending : Text) : Prop where
  some_char : ending ≠ []
  noParen : '(' ∉ ending
  oneLine : '\n' ∉ ending
  last : Stops isBlank ending.reverse
  read : upToEndOrConst? (list ++ ending) = some list

theorem closes_paren (list : Text) (oneLine : '\n' ∉ list) : Closes list [')'] where
  some_char := List.cons_ne_nil _ _
  noParen := by decide
  oneLine := by decide
  last := (stops_cons isBlank ')' []).mpr (by decide)
  read := upToEndOrConst?_close list oneLine

theorem closes_const (list : Text) (oneLine : '\n' ∉ list) : Closes list (')' :: " const".toList) where
  some_char := List.cons_ne_nil _ _
  noParen := by decide
  oneLine := by decide
  last := (stops_cons isBlank 't' _).mpr (by decide)
  read := upToEndOrConst?_const list oneLine

/-- What the label of an overload must be made of to be a line. A parameter of another type would not
be read back from its rendered form, or would be read as a part of the name. -/
structure Shown (callable : Callable) (list : Text) : Prop where
  typed : callable.kind ≠ .constructor
  some_type : callable.type ≠ []
  visible : ∀ c ∈ callable.type, isBlank c = false
  noParen : '(' ∉ callable.type
  declares : isComment callable.type = false
  identifier : Text.isIdentifier callable.name = true
  oneLine : '\n' ∉ list
  parameters : ∀ parameter ∈ (Signature.parse list).parameters,
    parameter.type ≠ "const".toList ∧ parameter.type.head? ≠ some '@' ∧ '(' ∉ parameter.type

namespace Shown

variable {callable : Callable} {list : Text} (shown : Shown callable list)
include shown

theorem label_shape : callable.signatureLabel (Signature.parse list) =
    callable.type ++ ' ' :: (callable.name ++ '(' :: ((Signature.parse list).render ++ [')'])) := by
  have typed := shown.typed
  rw [Callable.signatureLabel]
  split
  · next constructs => exact absurd constructs typed
  · rfl

theorem rendered : (Signature.parse list).Rendered :=
  Signature.parse_rendered list fun parameter member =>
    ⟨(shown.parameters parameter member).1, (shown.parameters parameter member).2.1⟩

theorem read_back : Signature.parse (Signature.parse list).render = Signature.parse list :=
  Signature.parse_render list fun parameter member => (shown.rendered parameter member).parse?_render

theorem render_oneLine : '\n' ∉ (Signature.parse list).render :=
  Signature.render_oneLine list shown.oneLine

theorem last_paren (rest : Text) (behind : '(' ∉ rest) :
    '(' ∉ headWord ((Signature.parse list).render ++ rest) :=
  shown.rendered.render_head '(' (by decide)
    (fun parameter member => (shown.parameters parameter member).2.2) rest behind

theorem label_head (rest : Text) : Stops isBlank (callable.type ++ rest) := by
  obtain ⟨first, more, shape⟩ := List.exists_cons_of_ne_nil shown.some_type
  rw [shape, List.cons_append, stops_cons]
  exact shown.visible first (shape ▸ List.mem_cons_self)

/-- No line with a type in front declares a constructor. -/
theorem no_constructor (rest : Text) : constructorLine? (callable.type ++ ' ' :: rest) = none := by
  cases read : Text.after? "<constructor>(".toList (callable.type ++ ' ' :: rest) with
  | none =>
      rw [constructorLine?, read]
      rfl
  | some behind =>
      obtain ⟨more, type, _⟩ := Text.after?_apart ' ' _ _ _ _ (by decide) read
      have paren : '(' ∈ callable.type := by
        rw [type]
        exact List.mem_append_left _ (by decide)
      exact absurd paren shown.noParen

theorem no_comment (rest : Text) : isComment (callable.type ++ ' ' :: rest) = false := by
  cases read : Text.after? "--".toList (callable.type ++ ' ' :: rest) with
  | none =>
      rw [isComment, read]
      rfl
  | some behind =>
      obtain ⟨more, type, _⟩ := Text.after?_apart ' ' _ _ _ _ (by decide) read
      have declares := shown.declares
      rw [isComment, type, Text.after?_append] at declares
      cases declares

variable {ending : Text} (closes : Closes (Signature.parse list).render ending)
include closes

theorem function_read :
    functionLine? (callable.type ++ ' ' ::
        (callable.name ++ '(' :: ((Signature.parse list).render ++ ending))) =
      some ⟨none, callable.type, callable.name, Signature.parse list⟩ := by
  have line := functionLine?_global callable.type callable.name _ _ shown.some_type shown.visible
    shown.identifier (shown.last_paren ending closes.noParen) closes.read
  rwa [shown.read_back] at line

/-- The line is all that the file of an object declares. -/
theorem object_read (owner : Text) :
    object owner (callable.type ++ ' ' ::
        (callable.name ++ '(' :: ((Signature.parse list).render ++ ending))) =
      ⟨owner, [], ⟨[(callable.name,
        ⟨.method owner, callable.type, callable.name, [Signature.parse list]⟩)]⟩, none⟩ := by
  let rest : Text := callable.name ++ '(' :: ((Signature.parse list).render ++ ending)
  have method := methodLine?_named callable.type callable.name _ _ shown.some_type shown.visible
    shown.identifier (shown.last_paren ending closes.noParen) closes.read
  rw [shown.read_back] at method
  have oneLine : '\n' ∉ callable.type ++ ' ' :: rest := by
    obtain ⟨_, chars⟩ := Text.identifier_chars _ shown.identifier
    have type : '\n' ∉ callable.type := fun member => absurd (shown.visible _ member) (by decide)
    have name : '\n' ∉ callable.name := fun member => absurd (chars _ member) (by decide)
    simp only [rest, List.mem_append, List.mem_cons, not_or]
    exact ⟨type, by decide, name, by decide, shown.render_oneLine, closes.oneLine⟩
  have trimmed : Text.Trimmed (callable.type ++ ' ' :: rest) := by
    refine ⟨shown.label_head _, ?_⟩
    have shape : callable.type ++ ' ' :: rest =
        (callable.type ++ ' ' :: (callable.name ++ '(' :: (Signature.parse list).render)) ++ ending := by
      simp only [rest, List.append_assoc, List.cons_append]
    rw [shape, stops_reverse isBlank _ ending closes.some_char]
    exact closes.last
  have single := declarationLines_single _ (by simp) oneLine trimmed (shown.no_comment rest)
  rw [object, single, List.foldl_cons, List.foldl_nil, addMember, shown.no_constructor, method]
  rfl

end Shown

/-- The label of an overload is a line that reads as what it shows: a function, a hook whose label is
the line again, and in the file of an object its one method. The marker `const` behind it changes
nothing, and in front of the name a namespace is told apart. -/
theorem label_read_back (callable : Callable) (list qualifier owner : Text)
    (shown : Shown callable list) (qualifies : Text.isIdentifier qualifier = true) :
    let signature := Signature.parse list
    let line := callable.signatureLabel signature
    let hook := Callable.hook callable.type callable.name signature
    functionLine? line = some ⟨none, callable.type, callable.name, signature⟩ ∧
      hookLine? line = some hook ∧ hook.label = line ∧
      object owner line =
        ⟨owner, [], ⟨[(callable.name, ⟨.method owner, callable.type, callable.name, [signature]⟩)]⟩,
          none⟩ ∧
      functionLine? (line ++ " const".toList) = functionLine? line ∧
      object owner (line ++ " const".toList) = object owner line ∧
      functionLine? (callable.type ++ ' ' ::
          Callable.applied (qualified qualifier callable.name) signature) =
        some ⟨some qualifier, callable.type, callable.name, signature⟩ := by
  intro signature line hook
  have closed := closes_paren signature.render shown.render_oneLine
  have const := closes_const signature.render shown.render_oneLine
  have shape : line = callable.type ++ ' ' :: (callable.name ++ '(' :: (signature.render ++ [')'])) :=
    shown.label_shape
  have constShape : line ++ " const".toList = callable.type ++ ' ' ::
      (callable.name ++ '(' :: (signature.render ++ ')' :: " const".toList)) := by
    rw [shape]
    simp only [List.append_assoc, List.cons_append, List.nil_append]
  have last := shown.last_paren [')'] closed.noParen
  have read := upToEnd?_close signature.render shown.render_oneLine
  have hookRead := hookLine?_named callable.type callable.name _ _ shown.some_type shown.visible
    shown.identifier last read
  have inNamespace := functionLine?_qualified callable.type callable.name _ _ shown.some_type
    shown.visible shown.identifier last qualifier qualifies closed.read
  rw [shown.read_back] at hookRead inNamespace
  rw [constShape, shape]
  refine ⟨shown.function_read closed, hookRead, rfl, shown.object_read closed owner, ?_, ?_, inNamespace⟩
  · rw [shown.function_read closed, shown.function_read const]
  · rw [shown.object_read closed, shown.object_read const]

theorem label_read_back_defaults :
    let list := "const Vec2f &in at = Vec2f(0, 0), CBlob@ = null, float[] weights".toList
    let spawn := Callable.function none "CBlob@".toList "server_Spawn".toList
    let line :=
      "CBlob@ server_Spawn(const Vec2f &in at = Vec2f(0, 0), CBlob@ b = null, float[] weights)".toList
    Shown spawn list ∧ spawn.signatureLabel (Signature.parse list) = line ∧
      functionLine? line = some ⟨none, spawn.type, spawn.name, Signature.parse list⟩ := by
  intro list spawn line
  have shown : Shown spawn list := by
    constructor <;> decide
  have label : spawn.signatureLabel (Signature.parse list) = line := by decide
  have read := (label_read_back spawn list "Engine".toList "CMap".toList shown (by decide)).1
  exact ⟨shown, label, label ▸ read⟩

end Manual

end ScriptSense
