import ScriptSense.Proofs.Declaration

/-!
Lexical scope of block-structured text. A block is a sequence of declarations and inner blocks with
any blanks between them; a cut goes through the items of the blocks it leaves open. The declarations
in front of a cut are those in the blocks that are open there, and a name has the type of the last
of them.
-/
namespace ScriptSense

structure VariableForm where
  constant : Option Break
  type : TypeForm
  gap : Gap
  name : Word
  trail : Gap
  apart : type.isBare = true → gap.text ≠ [] := by decide
  typed : Declaration.isPlausible type.text = true := by decide

namespace VariableForm

theorem proper (form : VariableForm) : form.type.text ≠ "const".toList := by
  intro const
  have typed := form.typed
  rw [const] at typed
  exact absurd typed (by decide)

def binding (form : VariableForm) : Binding where
  constant := form.constant
  type := form.type
  gap := form.gap
  reference := .none
  name := form.name
  apart bare empty := absurd empty (form.apart bare)
  proper := form.proper

def text (form : VariableForm) : Text := form.binding.text ++ (form.trail.text ++ [';'])

def declaration (form : VariableForm) : Declaration := form.binding.declaration

theorem plain (form : VariableForm) (c : Char) (member : c ∈ form.text) : braces.IsPlain c := by
  simp only [text, List.mem_append, List.mem_singleton] at member
  rcases member with inBinding | inTrail | rfl
  · exact form.binding.text_plain c inBinding
  · exact brace_blank_plain c (form.trail.blank c inTrail)
  · decide

theorem folds (form : VariableForm) : Folds braces form.text form.text := Folds.plain form.plain

theorem scan (form : VariableForm) (before : Option Char)
    (begins : before.all Declaration.mayFollow = true) (rest : Text) :
    findFrom Declaration.rule 0 before (form.text ++ rest) =
      form.declaration :: findFrom Declaration.rule 0 (some ';') rest := by
  have written := Declaration.scan_written form.binding before begins form.trail ';' rfl rest
  rwa [text, List.append_assoc, List.append_assoc]

end VariableForm

inductive Block where
  | done
  | space (c : Char) (blank : isBlank c = true) (rest : Block)
  | declare (form : VariableForm) (rest : Block)
  | nest (inner rest : Block)

namespace Block

def text : Block → Text
  | done => []
  | space c _ rest => c :: rest.text
  | declare form rest => form.text ++ rest.text
  | nest inner rest => '{' :: (inner.text ++ '}' :: rest.text)

def folded : Block → Text
  | done => []
  | space c _ rest => c :: rest.folded
  | declare form rest => form.text ++ rest.folded
  | nest _ rest => '{' :: '}' :: rest.folded

theorem folds (block : Block) : Folds braces block.text block.folded := by
  induction block with
  | done => exact Folds.nil
  | space c blank rest ih =>
      have plain : ∀ d ∈ [c], braces.IsPlain d := by
        intro d member
        rw [List.mem_singleton.mp member]
        exact brace_blank_plain c blank
      exact (Folds.plain plain).append ih
  | declare form rest ih => exact form.folds.append ih
  | nest inner rest innerFolds ih =>
      have both := (Folds.group braces_distinct innerFolds).append ih
      simpa [text, folded, braces] using both

/-- A place between two items of a block or of a block inside of it. -/
inductive Cut : Block → Type where
  | here (block : Block) : Cut block
  | space {c : Char} {blank : isBlank c = true} {rest : Block} (cut : Cut rest) :
      Cut (.space c blank rest)
  | declare {form : VariableForm} {rest : Block} (cut : Cut rest) : Cut (.declare form rest)
  | past {inner rest : Block} (cut : Cut rest) : Cut (.nest inner rest)
  | inside {inner rest : Block} (cut : Cut inner) : Cut (.nest inner rest)

namespace Cut

def text : {block : Block} → Cut block → Text
  | _, here _ => []
  | .space c _ _, space cut => c :: cut.text
  | .declare form _, declare cut => form.text ++ cut.text
  | .nest inner _, past cut => '{' :: (inner.text ++ '}' :: cut.text)
  | _, inside cut => '{' :: cut.text

def depth : {block : Block} → Cut block → Nat
  | _, here _ => 0
  | _, space cut => cut.depth
  | _, declare cut => cut.depth
  | _, past cut => cut.depth
  | _, inside cut => cut.depth + 1

/-- The declarations in front of the cut that stand at file scope or directly in an open block. -/
def visible : {block : Block} → Cut block → List Declaration
  | _, here _ => []
  | _, space cut => cut.visible
  | .declare form _, declare cut => form.declaration :: cut.visible
  | _, past cut => cut.visible
  | _, inside cut => cut.visible

def folded : {block : Block} → Cut block → Text
  | _, here _ => []
  | .space c _ _, space cut => c :: cut.folded
  | .declare form _, declare cut => form.text ++ cut.folded
  | _, past cut => '{' :: '}' :: cut.folded
  | _, inside cut => '{' :: cut.folded

-- Every item in front of the cut adds to the innermost open group; going into a block opens a new
-- one. The state is arbitrary because the items further in are read behind those further out.
theorem foldl_text {block : Block} (cut : Cut block) (state : Folded) :
    ((cut.text.foldl (Folded.step braces) state).text braces =
        state.text braces ++ cut.folded) ∧
      (cut.text.foldl (Folded.step braces) state).layers.length =
        state.layers.length + cut.depth := by
  induction cut generalizing state with
  | here block => simp [text, folded, depth]
  | @space c blank rest cut ih =>
      rw [text, List.foldl_cons, Folded.step_plain braces state c (brace_blank_plain c blank)]
      have later := ih (state.append [c])
      rw [Folded.append_text, Folded.append_depth, List.append_assoc] at later
      exact later
  | @declare form rest cut ih =>
      rw [text, List.foldl_append, form.folds]
      have later := ih (state.append form.text)
      rw [Folded.append_text, Folded.append_depth, List.append_assoc] at later
      exact later
  | @past inner rest cut ih =>
      have closed : Folds braces ('{' :: inner.text ++ ['}']) ['{', '}'] :=
        Folds.group braces_distinct inner.folds
      have split : text (past cut : Cut (.nest inner rest)) =
          ('{' :: inner.text ++ ['}']) ++ cut.text := by simp [text]
      rw [split, List.foldl_append, closed]
      have later := ih (state.append ['{', '}'])
      rw [Folded.append_text, Folded.append_depth, List.append_assoc] at later
      exact later
  | @inside inner rest cut ih =>
      have later := ih ⟨state.base, [] :: state.layers⟩
      rw [Folded.open_text, List.append_assoc] at later
      rw [text, List.foldl_cons]
      refine ⟨later.1, later.2.trans ?_⟩
      simp only [List.length_cons, depth]
      omega

theorem scan {block : Block} (cut : Cut block) (before : Option Char)
    (begins : before.all Declaration.mayFollow = true) :
    findFrom Declaration.rule 0 before cut.folded = cut.visible := by
  induction cut generalizing before with
  | here block => rfl
  | @space c blank rest cut ih =>
      rw [folded, Declaration.scan_silent before c _ (blank_not_word c blank)]
      exact ih (some c) (by simp [Declaration.mayFollow, blank])
  | @declare form rest cut ih =>
      rw [folded, form.scan before begins, ih (some ';') rfl]
      rfl
  | @past inner rest cut ih =>
      rw [folded, Declaration.scan_silent before '{' _ rfl, Declaration.scan_silent _ '}' _ rfl]
      exact ih (some '}') rfl
  | @inside inner rest cut ih =>
      rw [folded, Declaration.scan_silent before '{' _ rfl]
      exact ih (some '{') rfl

theorem visible_typed {block : Block} (cut : Cut block) :
    ∀ found ∈ cut.visible, Declaration.isPlausible found.type = true := by
  induction cut with
  | here block => simp [visible]
  | space cut ih => exact ih
  | @declare form rest cut ih =>
      intro found member
      rcases List.mem_cons.mp member with rfl | later
      · exact form.typed
      · exact ih found later
  | past cut ih => exact ih
  | inside cut ih => exact ih

end Cut

end Block

namespace Scope

theorem locals_cut {block : Block} (cut : Block.Cut block) (inside : 0 < cut.depth)
    (globals : List Declaration) : (ofText cut.text globals).locals = some cut.visible := by
  obtain ⟨folded, depth⟩ := cut.foldl_text Folded.empty
  have opened : (fold braces cut.text).layers.isEmpty = false := by
    cases layers : (fold braces cut.text).layers with
    | nil =>
        rw [fold] at layers
        simp [layers] at depth
        omega
    | cons layer layers => rfl
  have shown : (fold braces cut.text).text braces = cut.folded := folded
  have found : declarations cut.folded = cut.visible := by
    rw [declarations, findAll, cut.scan none rfl, List.filter_eq_self]
    exact cut.visible_typed
  simp [ofText, opened, shown, found]

/-- A name looked up inside of a block has the type of its last declaration in front of the cut that
no closed block hides, else that of the first global of the name. -/
theorem block_lookup (block : Block) (cut : Block.Cut block) (inside : 0 < cut.depth)
    (globals : List Declaration) (name : Text) :
    (ofText cut.text globals).typeOf? name =
      (((cut.visible.filter fun found => found.name = name).getLast?).or
        (globals.find? fun found => found.name = name)).map (·.type) := by
  have locals := locals_cut cut inside globals
  rw [typeOf?, locals, List.getLast?_filter]
  rfl

-- A closed block is passed, an outer declaration is shadowed, and no blanks stand between the items.
theorem block_lookup_shadowed :
    (ofText "int x;\x7bstring x;\x7d\x7bconst array<u8[]>@x ;f32 y;".toList
        [⟨"bool".toList, "x".toList⟩]).typeOf? "x".toList = some "array<u8[]>@".toList := by
  let x : Word := { text := ['x'] }
  let y : Word := { text := ['y'] }
  let int : TypeForm := .word { text := "int".toList } 0 0 0
  let string : TypeForm := .word { text := "string".toList } 0 0 0
  let float : TypeForm := .word { text := "f32".toList } 0 0 0
  let bytes : TypeForm := .array (.word { text := "u8".toList } 0 1 0) 1
  let outer : VariableForm := { constant := none, type := int, gap := .one, name := x, trail := .none }
  let hidden : VariableForm := { outer with type := string }
  let constant : Break := { Gap.one with some_blank := by decide }
  let inner : VariableForm :=
    { constant := some constant, type := bytes, gap := .none, name := x, trail := .one }
  let last : VariableForm := { outer with type := float, name := y }
  let block : Block :=
    .declare outer (.nest (.declare hidden .done) (.nest (.declare inner (.declare last .done)) .done))
  let cut : Block.Cut block := .declare (.past (.inside (.declare (.declare (.here _)))))
  exact block_lookup block cut (by decide) [⟨"bool".toList, "x".toList⟩] "x".toList

end Scope

end ScriptSense
