import Mathlib.Data.List.Induction
import Mathlib.Data.List.TakeWhile
import ScriptSense.Layout
import ScriptSense.Proofs.Class

/-!
Folding of text that is appended to other text. A text whose brackets all have their partners only
adds to the innermost open group, whatever is open before it, and what it adds is the text outside
of its own groups. The end of a text is the end of the folded text.
-/
namespace ScriptSense

namespace Bracket

/-- The number of open groups after a text that begins inside `depth` of them; none if a bracket
closes no group. -/
def depthAfter? (bracket : Bracket) : Nat → Text → Option Nat
  | depth, [] => some depth
  | depth, first :: rest =>
      if first = bracket.opening then depthAfter? bracket (depth + 1) rest
      else if first = bracket.closing then
        match depth with
        | 0 => none
        | outer + 1 => depthAfter? bracket outer rest
      else depthAfter? bracket depth rest

def Balanced (bracket : Bracket) (text : Text) : Prop := bracket.depthAfter? 0 text = some 0

instance (bracket : Bracket) (text : Text) : Decidable (bracket.Balanced text) :=
  inferInstanceAs (Decidable (bracket.depthAfter? 0 text = some 0))

/-- What stands outside of the groups of a text that begins inside `depth` of them, with the
brackets of the outermost groups. -/
def outside (bracket : Bracket) : Nat → Text → Text
  | _, [] => []
  | depth, first :: rest =>
      if first = bracket.opening then
        if depth = 0 then first :: outside bracket 1 rest else outside bracket (depth + 1) rest
      else if first = bracket.closing then
        if depth ≤ 1 then first :: outside bracket 0 rest else outside bracket (depth - 1) rest
      else if depth = 0 then first :: outside bracket 0 rest else outside bracket depth rest

def emptied (bracket : Bracket) (text : Text) : Text := bracket.outside 0 text

def IsPlain (bracket : Bracket) (c : Char) : Prop := c ≠ bracket.opening ∧ c ≠ bracket.closing

instance (bracket : Bracket) (c : Char) : Decidable (bracket.IsPlain c) :=
  inferInstanceAs (Decidable (c ≠ bracket.opening ∧ c ≠ bracket.closing))

theorem plain_of_kept (bracket : Bracket) (keep : Char → Bool)
    (refused : keep bracket.opening = false ∧ keep bracket.closing = false) (c : Char)
    (kept : keep c = true) : bracket.IsPlain c :=
  ⟨kept_ne keep c bracket.opening kept refused.1, kept_ne keep c bracket.closing kept refused.2⟩

theorem depthAfter?_marks (bracket : Bracket) (opening : isBlank bracket.opening = false)
    (closing : isBlank bracket.closing = false) (depth : Nat) (text : Text) :
    bracket.depthAfter? depth (text.filter (!isBlank ·)) = bracket.depthAfter? depth text := by
  induction text generalizing depth with
  | nil => rfl
  | cons first rest ih =>
      by_cases blank : isBlank first = true
      · have notOpening : first ≠ bracket.opening := kept_ne isBlank first _ blank opening
        have notClosing : first ≠ bracket.closing := kept_ne isBlank first _ blank closing
        rw [List.filter_cons_of_neg (by simp [blank]), ih, depthAfter?.eq_def _ depth (first :: rest)]
        simp [notOpening, notClosing]
      · rw [List.filter_cons_of_pos (by simp [blank]), depthAfter?.eq_def, depthAfter?.eq_def _ depth]
        simp only [ih]

end Bracket

namespace Folded

def append (state : Folded) (text : Text) : Folded :=
  text.foldl (fun state c => state.push c) state

@[simp] theorem append_nil (state : Folded) : state.append [] = state := rfl

theorem append_cons (state : Folded) (first : Char) (rest : Text) :
    state.append (first :: rest) = (state.push first).append rest := rfl

theorem append_append (state : Folded) (left right : Text) :
    state.append (left ++ right) = (state.append left).append right :=
  List.foldl_append

theorem append_base (base text : Text) : append ⟨base, []⟩ text = ⟨text.reverse ++ base, []⟩ := by
  induction text generalizing base with
  | nil => rfl
  | cons first rest ih => simp [append_cons, push, ih]

theorem append_layer (base : Text) (layer : Text) (layers : List Text) (text : Text) :
    append ⟨base, layer :: layers⟩ text = ⟨base, (text.reverse ++ layer) :: layers⟩ := by
  induction text generalizing layer with
  | nil => rfl
  | cons first rest ih => simp [append_cons, push, ih]

theorem push_text (bracket : Bracket) (state : Folded) (c : Char) :
    (state.push c).text bracket = state.text bracket ++ [c] := by
  obtain ⟨base, layers⟩ := state
  cases layers with
  | nil => simp [push, text]
  | cons layer layers => simp [push, text]

theorem append_text (bracket : Bracket) (state : Folded) (added : Text) :
    (state.append added).text bracket = state.text bracket ++ added := by
  induction added generalizing state with
  | nil => simp
  | cons first rest ih => rw [append_cons, ih, push_text, List.append_assoc]; rfl

theorem append_depth (state : Folded) (added : Text) :
    (state.append added).layers.length = state.layers.length := by
  induction added generalizing state with
  | nil => rfl
  | cons first rest ih =>
      obtain ⟨base, layers⟩ := state
      rw [append_cons, ih]
      cases layers <;> rfl

theorem layer_text (bracket : Bracket) (base layer : Text) (layers : List Text) :
    text bracket ⟨base, layer :: layers⟩ =
      text bracket ⟨base, layers⟩ ++ bracket.opening :: layer.reverse := by
  simp [text]

theorem open_text (bracket : Bracket) (base : Text) (layers : List Text) :
    text bracket ⟨base, [] :: layers⟩ = text bracket ⟨base, layers⟩ ++ [bracket.opening] :=
  layer_text bracket base [] layers

theorem step_plain (bracket : Bracket) (state : Folded) (c : Char) (plain : bracket.IsPlain c) :
    state.step bracket c = state.push c := by
  rw [step, if_neg plain.1, if_neg plain.2]

theorem step_opening (bracket : Bracket) (state : Folded) :
    state.step bracket bracket.opening = ⟨state.base, [] :: state.layers⟩ := by
  rw [step, if_pos rfl]

theorem step_closing (bracket : Bracket) (distinct : bracket.closing ≠ bracket.opening)
    (base layer : Text) (layers : List Text) :
    step bracket ⟨base, layer :: layers⟩ bracket.closing =
      append ⟨base, layers⟩ [bracket.opening, bracket.closing] := by
  rw [step, if_neg distinct, if_pos rfl]
  rfl

theorem step_text_last (bracket : Bracket) (state : Folded) (c : Char) :
    ((state.step bracket c).text bracket).getLast? = some c := by
  unfold step
  split
  · next same => rw [open_text, List.getLast?_concat, same]
  · split
    · split
      · rw [push_text, List.getLast?_concat]
      · rw [push_text, List.getLast?_concat]
    · rw [push_text, List.getLast?_concat]

end Folded

/-- Wherever it stands, the source only adds the result to the innermost open group. -/
def Folds (bracket : Bracket) (source result : Text) : Prop :=
  ∀ state : Folded, source.foldl (Folded.step bracket) state = state.append result

namespace Folds

variable {bracket : Bracket}

theorem nil : Folds bracket [] [] := fun _ => rfl

theorem append {left right leftResult rightResult : Text} (first : Folds bracket left leftResult)
    (second : Folds bracket right rightResult) :
    Folds bracket (left ++ right) (leftResult ++ rightResult) := by
  intro state
  rw [List.foldl_append, first, second, Folded.append_append]

theorem plain {text : Text} (apart : ∀ c ∈ text, bracket.IsPlain c) : Folds bracket text text := by
  induction text with
  | nil => exact nil
  | cons first rest ih =>
      intro state
      rw [List.foldl_cons, Folded.step_plain bracket state first (apart first List.mem_cons_self),
        ih fun c member => apart c (List.mem_cons_of_mem first member)]
      rfl

theorem group {source result : Text} (distinct : bracket.closing ≠ bracket.opening)
    (inside : Folds bracket source result) :
    Folds bracket (bracket.opening :: source ++ [bracket.closing])
      [bracket.opening, bracket.closing] := by
  intro state
  rw [List.cons_append, List.foldl_cons, List.foldl_append, Folded.step_opening, inside,
    Folded.append_layer]
  exact Folded.step_closing bracket distinct state.base _ state.layers

end Folds

theorem braces_distinct : braces.closing ≠ braces.opening := by decide

theorem parens_distinct : parens.closing ≠ parens.opening := by decide

theorem brace_blank_plain (c : Char) (blank : isBlank c = true) : braces.IsPlain c :=
  braces.plain_of_kept isBlank ⟨rfl, rfl⟩ c blank

theorem paren_blank_plain (c : Char) (blank : isBlank c = true) : parens.IsPlain c :=
  parens.plain_of_kept isBlank ⟨rfl, rfl⟩ c blank

def Folded.outer (bracket : Bracket) (state : Folded) : List Text → Folded
  | [] => state
  | _ :: _ => state.push bracket.opening

-- The layers of the open groups go when their groups close. The outermost of them leaves its
-- opening bracket then, which `outside` has kept since it was read: `outer` accounts for it.
theorem foldl_inside (bracket : Bracket) (distinct : bracket.closing ≠ bracket.opening)
    (text : Text) (state : Folded) (upper : List Text)
    (closed : bracket.depthAfter? upper.length text = some 0) :
    text.foldl (Folded.step bracket) ⟨state.base, upper ++ state.layers⟩ =
      (state.outer bracket upper).append (bracket.outside upper.length text) := by
  induction text generalizing state upper with
  | nil =>
      have none_open : upper = [] := by simpa [Bracket.depthAfter?] using closed
      subst none_open
      rfl
  | cons first rest ih =>
      rw [List.foldl_cons]
      by_cases opens : first = bracket.opening
      · subst opens
        have deeper : bracket.depthAfter? ([] :: upper).length rest = some 0 := by
          simpa [Bracket.depthAfter?] using closed
        have inner := ih state ([] :: upper) deeper
        rw [Folded.step_opening]
        refine inner.trans ?_
        cases upper with
        | nil => simp [Bracket.outside, Folded.outer, Folded.append_cons]
        | cons layer upper => simp [Bracket.outside, Folded.outer]
      · by_cases closes : first = bracket.closing
        · subst closes
          cases upper with
          | nil => simp [Bracket.depthAfter?, distinct] at closed
          | cons layer upper =>
              have shallower : bracket.depthAfter? upper.length rest = some 0 := by
                simpa [Bracket.depthAfter?, distinct] using closed
              rw [List.cons_append, Folded.step_closing bracket distinct]
              cases upper with
              | nil =>
                  refine (ih (state.append [bracket.opening, bracket.closing]) [] shallower).trans ?_
                  simp [Bracket.outside, Folded.outer, Folded.append_cons, distinct]
              | cons below upper =>
                  rw [List.cons_append, Folded.append_layer]
                  let emptiedBelow := [bracket.opening, bracket.closing].reverse ++ below
                  refine (ih state (emptiedBelow :: upper) shallower).trans ?_
                  simp [Bracket.outside, Folded.outer, distinct]
        · have plain : bracket.IsPlain first := ⟨opens, closes⟩
          have level : bracket.depthAfter? upper.length rest = some 0 := by
            simpa [Bracket.depthAfter?, opens, closes] using closed
          rw [Folded.step_plain bracket _ first plain]
          cases upper with
          | nil =>
              refine (ih (state.push first) [] level).trans ?_
              simp [Bracket.outside, Folded.outer, Folded.append_cons, opens, closes]
          | cons layer upper =>
              refine (ih state ((first :: layer) :: upper) level).trans ?_
              simp [Bracket.outside, Folded.outer, opens, closes]

theorem folds_balanced (bracket : Bracket) (distinct : bracket.closing ≠ bracket.opening)
    (text : Text) (balanced : bracket.Balanced text) :
    Folds bracket text (bracket.emptied text) := fun state =>
  foldl_inside bracket distinct text state [] balanced

theorem foldedText_append {bracket : Bracket} {source result : Text}
    (folds : Folds bracket source result) (context : Text) :
    foldedText bracket (context ++ source) = foldedText bracket context ++ result := by
  rw [foldedText, fold, List.foldl_append, folds, Folded.append_text]
  rfl

theorem Folds.folded {bracket : Bracket} {source result : Text} (folds : Folds bracket source result) :
    foldedText bracket source = result := by
  simpa [foldedText, fold, Folded.empty, Folded.text] using foldedText_append folds []

theorem folds_foldedText (bracket : Bracket) (distinct : bracket.closing ≠ bracket.opening)
    (text : Text) (balanced : bracket.Balanced text) :
    Folds bracket text (foldedText bracket text) := by
  have folds := folds_balanced bracket distinct text balanced
  rwa [folds.folded]

namespace Folded

def above (outer inner : Folded) : Folded := ⟨outer.base, inner.layers ++ inner.base :: outer.layers⟩

theorem above_push (outer inner : Folded) (c : Char) :
    (outer.above inner).push c = outer.above (inner.push c) := by
  obtain ⟨base, layers⟩ := inner
  cases layers <;> rfl

theorem above_text (bracket : Bracket) (outer inner : Folded) :
    (outer.above inner).text bracket =
      outer.text bracket ++ bracket.opening :: inner.text bracket := by
  simp [above, text, List.append_assoc]

-- A closing bracket that closes no group of the inner text would close the group around it.
theorem above_step (bracket : Bracket) (outer inner : Folded) (c : Char)
    (closes : c = bracket.closing → c ≠ bracket.opening → inner.layers ≠ []) :
    (outer.above inner).step bracket c = outer.above (inner.step bracket c) := by
  unfold step
  split
  · rfl
  · next notOpening =>
      split
      · next closing =>
          obtain ⟨base, layers⟩ := inner
          cases layers with
          | nil => exact absurd rfl (closes closing notOpening)
          | cons layer layers =>
              exact (congrArg (push c) (above_push outer ⟨base, layers⟩ bracket.opening)).trans
                (above_push outer _ c)
      · exact above_push outer inner c

-- What is outside stays as it was as long as the text closes none of the groups around it.
theorem above_foldl (bracket : Bracket) (text : Text) (outer inner : Folded)
    (unclosed : (bracket.depthAfter? inner.layers.length text).isSome = true) :
    text.foldl (step bracket) (outer.above inner) =
      outer.above (text.foldl (step bracket) inner) := by
  induction text generalizing inner with
  | nil => rfl
  | cons first rest ih =>
      have closes : first = bracket.closing → first ≠ bracket.opening → inner.layers ≠ [] := by
        intro closing notOpening empty
        simp [Bracket.depthAfter?, empty, closing, closing ▸ notOpening] at unclosed
      have later : (bracket.depthAfter? (inner.step bracket first).layers.length rest).isSome := by
        obtain ⟨base, layers⟩ := inner
        unfold step
        split
        · next opening => simpa [Bracket.depthAfter?, opening] using unclosed
        · next notOpening =>
            split
            · next closing =>
                cases layers with
                | nil => exact absurd rfl (closes closing notOpening)
                | cons layer layers =>
                    have depth := append_depth ⟨base, layers⟩ [bracket.opening, first]
                    simp only [append, List.foldl_cons, List.foldl_nil] at depth
                    rw [depth]
                    simpa [Bracket.depthAfter?, closing, closing ▸ notOpening] using unclosed
            · next notClosing =>
                have depth := append_depth ⟨base, layers⟩ [first]
                simp only [append, List.foldl_cons, List.foldl_nil] at depth
                rw [depth]
                simpa [Bracket.depthAfter?, notOpening, notClosing] using unclosed
      rw [List.foldl_cons, List.foldl_cons, above_step bracket outer inner first closes]
      exact ih (inner.step bracket first) later

end Folded

theorem fold_unclosed {bracket : Bracket} {context result : Text}
    (folds : Folds bracket context result) (body : Text)
    (unclosed : (bracket.depthAfter? 0 body).isSome = true) :
    fold bracket (context ++ bracket.opening :: body) =
      (Folded.empty.append result).above (fold bracket body) := by
  rw [fold, List.foldl_append, folds, List.foldl_cons, Folded.step_opening]
  exact Folded.above_foldl bracket body (Folded.empty.append result) Folded.empty unclosed

/-- A closed group folds as an empty one does, whatever surrounds it. -/
theorem fold_closed (bracket : Bracket) (distinct : bracket.closing ≠ bracket.opening)
    (lead inner rest : Text) (balanced : bracket.Balanced inner) :
    fold bracket (lead ++ bracket.opening :: (inner ++ bracket.closing :: rest)) =
      rest.foldl (Folded.step bracket)
        ((fold bracket lead).append [bracket.opening, bracket.closing]) := by
  have group := Folds.group distinct (folds_balanced bracket distinct inner balanced)
  have split : lead ++ bracket.opening :: (inner ++ bracket.closing :: rest) =
      lead ++ ((bracket.opening :: inner ++ [bracket.closing]) ++ rest) := by simp
  rw [split, fold, List.foldl_append, List.foldl_append, group]
  rfl

theorem foldedText_last (bracket : Bracket) (text : Text) :
    (foldedText bracket text).getLast? = text.getLast? := by
  induction text using List.reverseRecOn with
  | nil => rfl
  | append_singleton text last _ =>
      rw [foldedText, fold, List.foldl_append, List.getLast?_concat]
      exact Folded.step_text_last bracket _ last

-- A run of plain characters at the end of a text is one at the end of the folded text, and the
-- character before the run is the same.
theorem foldedText_ending (bracket : Bracket) (keep : Char → Bool)
    (apart : ∀ c, keep c = true → bracket.IsPlain c) (text : Text) :
    (foldedText bracket text).reverse.takeWhile keep = text.reverse.takeWhile keep ∧
      ((foldedText bracket text).reverse.dropWhile keep).head? =
        (text.reverse.dropWhile keep).head? := by
  let run := text.reverse.takeWhile keep
  let body := text.reverse.dropWhile keep
  have inside : ∀ c ∈ run, keep c = true := fun c member => List.mem_takeWhile_imp member
  have split : text = body.reverse ++ run.reverse := by
    rw [← List.reverse_append, List.takeWhile_append_dropWhile, List.reverse_reverse]
  have folded : (foldedText bracket text).reverse =
      run ++ (foldedText bracket body.reverse).reverse := by
    have plain : Folds bracket run.reverse run.reverse :=
      Folds.plain fun c member => apart c (inside c (List.mem_reverse.mp member))
    rw [split, foldedText_append plain, List.reverse_append, List.reverse_reverse]
  have same_head : (foldedText bracket body.reverse).reverse.head? = body.head? := by
    rw [List.head?_reverse, foldedText_last, List.getLast?_reverse]
  have stop : Stops keep (foldedText bracket body.reverse).reverse := by
    intro c head
    rw [same_head] at head
    have refused := List.head?_dropWhile_not keep text.reverse
    simpa [head, body] using refused
  rw [folded, Text.takeWhile_run keep run _ inside stop, Text.dropWhile_run keep run _ inside stop]
  exact ⟨rfl, same_head⟩

end ScriptSense
