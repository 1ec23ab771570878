import Mathlib.Data.List.Lex
import ScriptSense.Proofs.Folding

/-!
Places of a source and places of its folded text. How deep a place is nested is the number of groups
that are open there, and folding holds one layer for each of them. A run of plain text that folding
leaves stands at exactly one place of the source, and all groups around that place are open to the end.
-/
namespace ScriptSense

namespace Bracket

def nestingStep (bracket : Bracket) (depth : Nat) (c : Char) : Nat :=
  if c = bracket.opening then depth + 1 else if c = bracket.closing then depth - 1 else depth

/-- The number of open groups behind a text that begins inside `depth` of them. A bracket that closes
no group is passed over. -/
def nesting (bracket : Bracket) (depth : Nat) (text : Text) : Nat :=
  text.foldl bracket.nestingStep depth

theorem nesting_append (bracket : Bracket) (depth : Nat) (left right : Text) :
    bracket.nesting depth (left ++ right) = bracket.nesting (bracket.nesting depth left) right :=
  List.foldl_append

theorem nestingStep_plain (bracket : Bracket) (depth : Nat) (c : Char) (plain : bracket.IsPlain c) :
    bracket.nestingStep depth c = depth := by
  rw [nestingStep, if_neg plain.1, if_neg plain.2]

theorem nesting_plain (bracket : Bracket) (depth : Nat) (text : Text)
    (plain : ∀ c ∈ text, bracket.IsPlain c) : bracket.nesting depth text = depth := by
  induction text with
  | nil => rfl
  | cons first rest ih =>
      have here := bracket.nestingStep_plain depth first (plain first List.mem_cons_self)
      have later := ih fun c member => plain c (List.mem_cons_of_mem first member)
      rwa [nesting, List.foldl_cons, here]

theorem outside_append (bracket : Bracket) (depth : Nat) (left right : Text) :
    bracket.outside depth (left ++ right) =
      bracket.outside depth left ++ bracket.outside (bracket.nesting depth left) right := by
  induction left generalizing depth with
  | nil => rfl
  | cons first left ih =>
      by_cases opens : first = bracket.opening
      · by_cases outer : depth = 0
        · simp [outside, nesting, nestingStep, opens, outer, ih]
        · simp [outside, nesting, nestingStep, opens, outer, ih]
      · by_cases closes : first = bracket.closing
        · by_cases outer : depth ≤ 1
          · have level : depth - 1 = 0 := Nat.sub_eq_zero_of_le outer
            simp [outside, nesting, nestingStep, closes ▸ opens, closes, outer, level, ih]
          · simp [outside, nesting, nestingStep, closes ▸ opens, closes, outer, ih]
        · by_cases outer : depth = 0
          · simp [outside, nesting, nestingStep, opens, closes, outer, ih]
          · simp [outside, nesting, nestingStep, opens, closes, outer, ih]

theorem outside_plain (bracket : Bracket) (depth : Nat) (text : Text)
    (plain : ∀ c ∈ text, bracket.IsPlain c) :
    bracket.outside depth text = if depth = 0 then text else [] := by
  induction text with
  | nil => simp [outside]
  | cons first rest ih =>
      have here := plain first List.mem_cons_self
      have later := ih fun c member => plain c (List.mem_cons_of_mem first member)
      rw [outside, if_neg here.1, if_neg here.2]
      by_cases outer : depth = 0
      · simpa [outer] using later
      · simpa [outer] using later

theorem outside_mark (bracket : Bracket) (depth : Nat) (mark : Char) (rest : Text)
    (notPlain : ¬bracket.IsPlain mark) :
    bracket.outside depth (mark :: rest) =
      if depth = 0 ∨ bracket.nestingStep depth mark = 0 then
        mark :: bracket.outside (bracket.nestingStep depth mark) rest
      else bracket.outside (bracket.nestingStep depth mark) rest := by
  by_cases opens : mark = bracket.opening
  · by_cases top : depth = 0
    · simp [outside, nestingStep, opens, top]
    · simp [outside, nestingStep, opens, top]
  · have closes : mark = bracket.closing := by
      by_contra other
      exact notPlain ⟨opens, other⟩
    have level : (depth = 0 ∨ depth - 1 = 0) = (depth ≤ 1) := by
      rw [eq_iff_iff]
      omega
    simp only [outside, nestingStep, if_neg opens, if_pos closes, level]
    split
    · next shallow => rw [Nat.sub_eq_zero_of_le shallow]
    · rfl

def StaysOpen (bracket : Bracket) (front rest : Text) : Prop :=
  ∀ more, more <+: rest → bracket.nesting 0 front ≤ bracket.nesting 0 (front ++ more)

end Bracket

section Depth

variable (bracket : Bracket)

theorem Folded.step_depth (state : Folded) (c : Char) :
    (state.step bracket c).layers.length = bracket.nestingStep state.layers.length c := by
  unfold Folded.step Bracket.nestingStep
  split
  · rfl
  · split
    · obtain ⟨base, layers⟩ := state
      cases layers with
      | nil => rfl
      | cons layer layers => exact append_depth ⟨base, layers⟩ [bracket.opening, c]
    · exact append_depth state [c]

theorem fold_concat (source : Text) (c : Char) :
    fold bracket (source ++ [c]) = (fold bracket source).step bracket c := by
  rw [fold, List.foldl_append]
  rfl

theorem fold_depth (source : Text) :
    (fold bracket source).layers.length = bracket.nesting 0 source := by
  induction source using List.reverseRecOn with
  | nil => rfl
  | append_singleton source last ih =>
      rw [fold_concat, Folded.step_depth, ih, Bracket.nesting_append]
      rfl

-- The text outside of all groups ends with the bracket of the outermost open one.
theorem fold_outside (source : Text) :
    bracket.emptied source = (fold bracket source).base.reverse ++
      if (fold bracket source).layers = [] then [] else [bracket.opening] := by
  induction source using List.reverseRecOn with
  | nil => rfl
  | append_singleton source last ih =>
      rw [Bracket.emptied] at ih ⊢
      rw [Bracket.outside_append, ih, ← fold_depth, fold_concat]
      obtain ⟨base, layers⟩ := fold bracket source
      by_cases opens : last = bracket.opening
      · cases layers with
        | nil => simp [Folded.step, Bracket.outside, opens]
        | cons layer layers => simp [Folded.step, Bracket.outside, opens]
      · by_cases closes : last = bracket.closing
        · subst closes
          cases layers with
          | nil => simp [Folded.step, Folded.push, Bracket.outside, opens]
          | cons layer layers =>
              cases layers with
              | nil => simp [Folded.step, Folded.push, Bracket.outside, opens]
              | cons below layers => simp [Folded.step, Folded.push, Bracket.outside, opens]
        · cases layers with
          | nil => simp [Folded.step, Folded.push, Bracket.outside, opens, closes]
          | cons layer layers => simp [Folded.step, Folded.push, Bracket.outside, opens, closes]

/-- The folded text begins with the text outside of all groups, and goes on inside of the open ones. -/
theorem foldedText_outer (source : Text) :
    (fold bracket source).layers = [] ∧ bracket.emptied source = foldedText bracket source ∨
      ∃ more, foldedText bracket source =
          (fold bracket source).base.reverse ++ bracket.opening :: more ∧
        bracket.emptied source = (fold bracket source).base.reverse ++ [bracket.opening] := by
  rw [fold_outside, foldedText, Folded.text]
  cases open_ : (fold bracket source).layers using List.reverseRec with
  | nil => exact Or.inl ⟨rfl, by simp⟩
  | append_singleton layers outermost => exact Or.inr ⟨_, by simp; rfl, by simp⟩

/-- Where no group is open, folding only empties the closed ones. -/
theorem foldedText_outside (source : Text) (outer : bracket.nesting 0 source = 0) :
    foldedText bracket source = bracket.emptied source := by
  have none_open : (fold bracket source).layers = [] := by
    rw [← List.length_eq_zero_iff, fold_depth, outer]
  rw [fold_outside, if_pos none_open, foldedText, Folded.text, none_open]
  rfl

end Depth

namespace Folded

theorem step_push (bracket : Bracket) (state : Folded) (c : Char) (notOpening : c ≠ bracket.opening)
    (keeps : c = bracket.closing → state.layers = []) : state.step bracket c = state.push c := by
  rw [step, if_neg notOpening]
  split
  · next closes => rw [keeps closes]
  · rfl

/-- Unless a group is closed, folding keeps what was folded before. -/
theorem step_text (bracket : Bracket) (state : Folded) (c : Char)
    (keeps : c = bracket.closing → state.layers = []) :
    (state.step bracket c).text bracket = state.text bracket ++ [c] := by
  by_cases opens : c = bracket.opening
  · rw [opens, step_opening, open_text]
  · rw [step_push bracket state c opens keeps, push_text]

def grown (state : Folded) (more : Text) (upper : List Text) : Folded :=
  ⟨(state.append more).base, upper ++ (state.append more).layers⟩

theorem grown_text (bracket : Bracket) (state : Folded) (more : Text) (upper : List Text) :
    (state.grown more upper).text bracket =
      state.text bracket ++
        (more ++ upper.reverse.flatMap fun layer => bracket.opening :: layer.reverse) := by
  have below := append_text bracket state more
  simp only [text] at below
  simp only [grown, text, List.reverse_append, List.flatMap_append]
  rw [← List.append_assoc, below, List.append_assoc]

theorem grown_append_text (bracket : Bracket) (more : Text) (upper : List Text) :
    ∃ behind, ∀ (state : Folded) (run : Text),
      ((state.append run).grown more upper).text bracket =
        state.text bracket ++ (run ++ behind) := by
  refine ⟨more ++ upper.reverse.flatMap fun layer => bracket.opening :: layer.reverse, ?_⟩
  intro state run
  rw [grown_text, append_text, List.append_assoc]

theorem grown_depth (state : Folded) (more : Text) (upper : List Text) :
    (state.grown more upper).layers.length = upper.length + state.layers.length := by
  rw [grown, List.length_append, append_depth]

theorem grown_append (more : Text) (upper : List Text) (text : Text) :
    ∃ added above, ∀ state : Folded, (state.grown more upper).append text = state.grown added above := by
  cases upper with
  | nil => exact ⟨more ++ text, [], fun state => by simp [grown, append_append]⟩
  | cons layer upper => exact ⟨more, (text.reverse ++ layer) :: upper, fun state => append_layer _ _ _ _⟩

-- Only a bracket that closes the layer with the new text depends on what is below that text.
theorem grown_step (bracket : Bracket) (distinct : bracket.closing ≠ bracket.opening) (c : Char)
    (more : Text) (upper : List Text) :
    ∃ added above, ∀ state : Folded, (c = bracket.closing → upper = [] → state.layers = []) →
      (state.grown more upper).step bracket c = state.grown added above := by
  by_cases opens : c = bracket.opening
  · exact ⟨more, [] :: upper, fun state _ => by rw [opens, step_opening]; rfl⟩
  · by_cases inside : c = bracket.closing ∧ upper ≠ []
    · obtain ⟨rfl, some_layer⟩ := inside
      obtain ⟨layer, upper, rfl⟩ := List.exists_cons_of_ne_nil some_layer
      obtain ⟨added, above, appended⟩ := grown_append more upper [bracket.opening, bracket.closing]
      exact ⟨added, above, fun state _ => (step_closing bracket distinct _ _ _).trans (appended state)⟩
    · obtain ⟨added, above, appended⟩ := grown_append more upper [c]
      refine ⟨added, above, fun state bottom => ?_⟩
      rw [← appended]
      apply step_push bracket _ c opens
      intro closes
      have none_above : upper = [] := by tauto
      rw [← List.length_eq_zero_iff, grown_depth, none_above, bottom closes none_above]
      rfl

def Grows (state later : Folded) : Prop := ∃ more upper, later = state.grown more upper

namespace Grows

variable {state later : Folded}

theorem refl (state : Folded) : state.Grows state := ⟨[], [], rfl⟩

theorem depth (grows : state.Grows later) : state.layers.length ≤ later.layers.length := by
  obtain ⟨more, upper, rfl⟩ := grows
  rw [grown_depth]
  exact Nat.le_add_left _ _

theorem step (bracket : Bracket) (distinct : bracket.closing ≠ bracket.opening) (c : Char)
    (grows : state.Grows later)
    (keeps : c = bracket.closing → state.layers = [] ∨ state.layers.length < later.layers.length) :
    state.Grows (later.step bracket c) := by
  obtain ⟨more, upper, rfl⟩ := grows
  obtain ⟨added, above, stepped⟩ := grown_step bracket distinct c more upper
  refine ⟨added, above, stepped state fun closes none_above => ?_⟩
  rcases keeps closes with bottom | deeper
  · exact bottom
  · rw [grown_depth, none_above, List.length_nil, Nat.zero_add] at deeper
    exact absurd deeper (Nat.lt_irrefl _)

-- A group that is closed takes its text along. If all that the first state holds is still outside of
-- the group, then the group was opened later.
theorem closed (bracket : Bracket) (distinct : bracket.closing ≠ bracket.opening)
    {base layer : Text} {layers : List Text} (grows : state.Grows ⟨base, layer :: layers⟩)
    (kept : (state.text bracket).length ≤ (text bracket ⟨base, layers⟩).length) :
    state.Grows (Folded.step bracket ⟨base, layer :: layers⟩ bracket.closing) := by
  apply grows.step bracket distinct
  intro _
  obtain ⟨more, upper, shape⟩ := grows
  cases upper with
  | cons top upper =>
      have depth := congrArg (·.layers.length) shape
      simp only [grown_depth, List.length_cons] at depth ⊢
      exact Or.inr (by omega)
  | nil =>
      obtain ⟨below, layersBelow⟩ := state
      cases layersBelow with
      | nil => exact Or.inl rfl
      | cons top layersBelow =>
          rw [grown, append_layer] at shape
          simp only [List.nil_append, Folded.mk.injEq, List.cons.injEq] at shape
          obtain ⟨rfl, rfl, rfl⟩ := shape
          rw [layer_text, List.length_append, List.length_cons] at kept
          omega

end Grows

end Folded

section Exchange

variable (bracket : Bracket) (distinct : bracket.closing ≠ bracket.opening)

/-- Two states are equal, or they still hold two texts that were added to the same state, with the same
behind them. -/
def Twins (state : Folded) (one other : Text) (first second : Folded) : Prop :=
  first = second ∨ ∃ more upper, first = (state.append one).grown more upper ∧
    second = (state.append other).grown more upper

include distinct

theorem Twins.step {state first second : Folded} {one other : Text} (c : Char)
    (twins : Twins state one other first second) :
    Twins state one other (first.step bracket c) (second.step bracket c) := by
  rcases twins with rfl | ⟨more, upper, rfl, rfl⟩
  · exact Or.inl rfl
  · have empty (text : Text) (bottom : state.layers = []) : (state.append text).layers = [] := by
      rw [← List.length_eq_zero_iff, Folded.append_depth, bottom]
      rfl
    by_cases closed : c = bracket.closing ∧ upper = [] ∧ state.layers ≠ []
    · -- The layer with the text is gone.
      obtain ⟨rfl, rfl, some_layer⟩ := closed
      obtain ⟨base, layers⟩ := state
      obtain ⟨layer, layers, rfl⟩ := List.exists_cons_of_ne_nil some_layer
      have gone (text : Text) : (Folded.grown (Folded.append ⟨base, layer :: layers⟩ text) more []).step
          bracket bracket.closing =
            Folded.append ⟨base, layers⟩ [bracket.opening, bracket.closing] := by
        rw [Folded.grown, ← Folded.append_append, Folded.append_layer]
        exact Folded.step_closing bracket distinct base _ layers
      exact Or.inl ((gone one).trans (gone other).symm)
    · obtain ⟨added, above, stepped⟩ := Folded.grown_step bracket distinct c more upper
      have keeps (text : Text) (closes : c = bracket.closing) (none_above : upper = []) :
          (state.append text).layers = [] := empty text (by tauto)
      exact Or.inr ⟨added, above, stepped _ (keeps one), stepped _ (keeps other)⟩

theorem Twins.run {state first second : Folded} {one other : Text} (text : Text)
    (twins : Twins state one other first second) :
    Twins state one other (text.foldl (Folded.step bracket) first)
      (text.foldl (Folded.step bracket) second) := by
  induction text generalizing first second with
  | nil => exact twins
  | cons c text ih => exact ih (twins.step bracket distinct c)

/-- A text that was added to a state is gone with its layer, or it stands where it was added. -/
theorem foldl_exchange (state : Folded) (one other rest : Text) :
    (rest.foldl (Folded.step bracket) (state.append one)).text bracket =
        (rest.foldl (Folded.step bracket) (state.append other)).text bracket ∨
      ∃ behind,
        (rest.foldl (Folded.step bracket) (state.append one)).text bracket =
            state.text bracket ++ (one ++ behind) ∧
          (rest.foldl (Folded.step bracket) (state.append other)).text bracket =
            state.text bracket ++ (other ++ behind) := by
  have start : Twins state one other (state.append one) (state.append other) :=
    Or.inr ⟨[], [], rfl, rfl⟩
  rcases start.run bracket distinct rest with same | ⟨more, upper, first, second⟩
  · exact Or.inl (by rw [same])
  · obtain ⟨behind, text⟩ := Folded.grown_append_text bracket more upper
    refine Or.inr ⟨behind, ?_, ?_⟩
    · rw [first, text]
    · rw [second, text]

theorem Folded.Grows.run {state later : Folded} (bottom : state.layers = []) (text : Text)
    (grows : state.Grows later) : state.Grows (text.foldl (Folded.step bracket) later) := by
  induction text generalizing later with
  | nil => exact grows
  | cons c text ih => exact ih (grows.step bracket distinct c fun _ => Or.inl bottom)

/-- As many closing brackets as there are open groups close all of them. -/
theorem foldl_closings (state : Folded) :
    ((List.replicate state.layers.length bracket.closing).foldl (Folded.step bracket) state).layers =
      [] := by
  generalize depth : state.layers.length = count
  induction count generalizing state with
  | zero => exact List.length_eq_zero_iff.mp depth
  | succ count ih =>
      rw [List.replicate_succ, List.foldl_cons]
      apply ih
      rw [Folded.step_depth, Bracket.nestingStep, if_neg distinct, if_pos rfl, depth]
      rfl

/-- A run behind the closing brackets of all open groups is outside of them, whatever follows it. -/
theorem foldl_surfaced (state : Folded) (run rest : Text) (plain : ∀ c ∈ run, bracket.IsPlain c) :
    ∃ lead more,
      ((List.replicate state.layers.length bracket.closing ++ (run ++ rest)).foldl
        (Folded.step bracket) state).text bracket = lead ++ (run ++ more) := by
  let closed := (List.replicate state.layers.length bracket.closing).foldl (Folded.step bracket) state
  have bottom : (closed.append run).layers = [] := by
    rw [← List.length_eq_zero_iff, Folded.append_depth, List.length_eq_zero_iff]
    exact foldl_closings bracket distinct state
  obtain ⟨more, upper, grown⟩ :=
    (Folded.Grows.refl (closed.append run)).run bracket distinct bottom rest
  obtain ⟨behind, text⟩ := Folded.grown_append_text bracket more upper
  refine ⟨closed.text bracket, behind, ?_⟩
  rw [List.foldl_append, List.foldl_append, Folds.plain plain, grown, text]

end Exchange

structure RunAt (bracket : Bracket) (source lead run rest : Text) : Prop where
  split : source = lead ++ (run ++ rest)
  grows : ∀ more, more <+: rest →
    ((fold bracket lead).append run).Grows (fold bracket (lead ++ (run ++ more)))

namespace RunAt

variable {bracket : Bracket} {source lead run rest : Text}

theorem ending (plain : ∀ c ∈ run, bracket.IsPlain c) : RunAt bracket (lead ++ run) lead run [] where
  split := by rw [List.append_nil]
  grows more inRest := by
    have read : fold bracket (lead ++ run) = (fold bracket lead).append run :=
      List.foldl_append.trans (Folds.plain plain _)
    rw [List.prefix_nil.mp inRest, List.append_nil, read]
    exact .refl _

theorem last (place : RunAt bracket source lead run rest) :
    ((fold bracket lead).append run).Grows (fold bracket source) := by
  have grows := place.grows rest List.prefix_rfl
  rwa [← place.split] at grows

theorem concat (place : RunAt bracket source lead run rest) (c : Char)
    (grows : ((fold bracket lead).append run).Grows ((fold bracket source).step bracket c)) :
    RunAt bracket (source ++ [c]) lead run (rest ++ [c]) where
  split := by simp [place.split]
  grows more inRest := by
    rcases List.prefix_concat_iff.mp inRest with all | earlier
    · have here : lead ++ (run ++ more) = source ++ [c] := by simp [all, place.split]
      rw [here, fold_concat]
      exact grows
    · exact place.grows more earlier

end RunAt

section Run

variable (bracket : Bracket) (distinct : bracket.closing ≠ bracket.opening)

theorem run_before_last (front run behind outer : Text) (c : Char)
    (plain : ∀ c ∈ run, bracket.IsPlain c) (some_char : run ≠ []) (mark : ¬bracket.IsPlain c)
    (split : outer ++ [c] = front ++ (run ++ behind)) :
    ∃ between, behind = between ++ [c] ∧ outer = front ++ (run ++ between) := by
  cases behind using List.reverseRec with
  | nil =>
      have last := congrArg List.getLast? split
      rw [List.getLast?_concat, List.append_nil, List.getLast?_append_of_ne_nil _ some_char] at last
      exact absurd (plain c (List.mem_of_getLast? last.symm)) mark
  | append_singleton behind last =>
      have same : outer ++ [c] = (front ++ (run ++ behind)) ++ [last] := by simpa using split
      obtain ⟨body, one⟩ := List.append_inj' same rfl
      exact ⟨behind, by rw [List.cons.inj one |>.1], body⟩

include distinct

def StandsIn (source front run behind : Text) : Prop :=
  ∃ lead rest, RunAt bracket source lead run rest ∧ foldedText bracket lead = front ∧
    rest.head? = behind.head?

theorem standsIn_kept {source front run : Text} (plain : ∀ c ∈ run, bracket.IsPlain c)
    (earlier : ∀ run behind, (∀ c ∈ run, bracket.IsPlain c) → run ≠ [] →
      foldedText bracket source = front ++ (run ++ behind) → StandsIn bracket source front run behind)
    (behind : Text) (some_char : run ≠ []) (last : Char)
    (keeps : last = bracket.closing → (fold bracket source).layers = [])
    (split : foldedText bracket source ++ [last] = front ++ (run ++ behind)) :
    StandsIn bracket (source ++ [last]) front run behind := by
  cases behind using List.reverseRec with
  | append_singleton behind final =>
      have same : foldedText bracket source ++ [last] = (front ++ (run ++ behind)) ++ [final] := by
        simpa using split
      obtain ⟨before, one⟩ := List.append_inj' same rfl
      obtain rfl := (List.cons.inj one).1
      obtain ⟨lead, rest, place, folded, head⟩ := earlier run behind plain some_char before
      have grows := place.last.step bracket distinct last fun closes => by
        have depth := place.last.depth
        rw [keeps closes] at depth
        exact Or.inl (List.length_eq_zero_iff.mp (Nat.le_zero.mp depth))
      refine ⟨lead, rest ++ [last], place.concat last grows, folded, ?_⟩
      rw [List.head?_append, List.head?_append, head]
  | nil =>
      -- The character is the last one of the run.
      obtain ⟨body, final, rfl⟩ := (List.eq_nil_or_concat' run).resolve_left some_char
      have same : foldedText bracket source ++ [last] = (front ++ body) ++ [final] := by
        simpa using split
      obtain ⟨before, one⟩ := List.append_inj' same rfl
      obtain rfl := (List.cons.inj one).1
      have here (lead : Text) (whole : source = lead ++ body) :
          RunAt bracket (source ++ [last]) lead (body ++ [last]) [] := by
        rw [whole, List.append_assoc]
        exact .ending plain
      by_cases alone : body = []
      · subst alone
        refine ⟨source, [], here source (List.append_nil _).symm, ?_, rfl⟩
        rw [before, List.append_nil]
      · have plainBody : ∀ c ∈ body, bracket.IsPlain c := fun c member =>
          plain c (List.mem_append_left _ member)
        obtain ⟨lead, rest, place, folded, head⟩ := earlier body [] plainBody alone (by simpa using before)
        obtain rfl := List.head?_eq_none_iff.mp head
        exact ⟨lead, [], here lead (by simpa using place.split), folded, rfl⟩

theorem standsIn_closed {source front run : Text} (plain : ∀ c ∈ run, bracket.IsPlain c)
    (some_char : run ≠ [])
    (earlier : ∀ behind, foldedText bracket source = front ++ (run ++ behind) →
      StandsIn bracket source front run behind)
    (behind base layer : Text) (layers : List Text) (state : fold bracket source = ⟨base, layer :: layers⟩)
    (split : foldedText bracket (source ++ [bracket.closing]) = front ++ (run ++ behind)) :
    StandsIn bracket (source ++ [bracket.closing]) front run behind := by
  rw [foldedText, fold_concat, state, Folded.step_closing bracket distinct, Folded.append_text] at split
  have pair : (Folded.text bracket ⟨base, layers⟩ ++ [bracket.opening]) ++ [bracket.closing] =
      front ++ (run ++ behind) := by simpa using split
  obtain ⟨behind, rfl, opened⟩ := run_before_last bracket front run behind _ _ plain
    some_char (fun closed => closed.2 rfl) pair
  obtain ⟨between, rfl, outer⟩ := run_before_last bracket front run behind _ _ plain
    some_char (fun opened => opened.1 rfl) opened
  have before : foldedText bracket source =
      front ++ (run ++ (between ++ bracket.opening :: layer.reverse)) := by
    rw [foldedText, state, Folded.layer_text, outer]
    simp
  obtain ⟨lead, rest, place, rfl, head⟩ := earlier _ before
  have grows := place.last
  rw [state] at grows
  have kept : (((fold bracket lead).append run).text bracket).length ≤
      (Folded.text bracket ⟨base, layers⟩).length := by
    rw [Folded.append_text, outer, ← foldedText, List.length_append, List.length_append,
      List.length_append]
    omega
  have closed := grows.closed bracket distinct kept
  rw [← state] at closed
  refine ⟨lead, rest ++ [bracket.closing], place.concat _ closed, rfl, ?_⟩
  rw [List.head?_append, head]
  cases between with
  | nil => rfl
  | cons first between => rfl

/-- A run of plain text that folding leaves stands in the source. -/
theorem folded_run (source front run behind : Text) (plain : ∀ c ∈ run, bracket.IsPlain c)
    (some_char : run ≠ []) (split : foldedText bracket source = front ++ (run ++ behind)) :
    StandsIn bracket source front run behind := by
  induction source using List.reverseRecOn generalizing run behind with
  | nil => simp [foldedText, fold, Folded.empty, Folded.text, some_char] at split
  | append_singleton source last ih =>
      have earlier (run behind : Text) (plain : ∀ c ∈ run, bracket.IsPlain c) (some_char : run ≠ [])
          (split : foldedText bracket source = front ++ (run ++ behind)) :=
        ih run behind plain some_char split
      by_cases closes : last = bracket.closing ∧ (fold bracket source).layers ≠ []
      · obtain ⟨rfl, some_open⟩ := closes
        obtain ⟨layer, layers, shape⟩ := List.exists_cons_of_ne_nil some_open
        exact standsIn_closed bracket distinct plain some_char
          (fun behind => earlier run behind plain some_char) behind (fold bracket source).base layer
          layers (by rw [← shape]) split
      · have keeps : last = bracket.closing → (fold bracket source).layers = [] := by tauto
        rw [foldedText, fold_concat, Folded.step_text bracket _ last keeps, ← foldedText] at split
        exact standsIn_kept bracket distinct plain earlier behind some_char last keeps split

end Run

theorem RunAt.staysOpen {bracket : Bracket} {source lead run rest : Text}
    (place : RunAt bracket source lead run rest) (plain : ∀ c ∈ run, bracket.IsPlain c) :
    bracket.StaysOpen lead (run ++ rest) := by
  intro more inRest
  rcases List.prefix_or_prefix_of_prefix inRest (List.prefix_append run rest) with within | beyond
  · have level := bracket.nesting_plain (bracket.nesting 0 lead) more fun c member =>
      plain c (within.subset member)
    rw [Bracket.nesting_append, level]
  · obtain ⟨further, rfl⟩ := beyond
    have grown := (place.grows further ((List.prefix_append_right_inj run).mp inRest)).depth
    rwa [Folded.append_depth, fold_depth, fold_depth] at grown

/-- A run is outside of all groups exactly if folding leaves the text in front of it outside of all
open ones. -/
theorem RunAt.outer_iff {bracket : Bracket} {source lead run rest : Text}
    (place : RunAt bracket source lead run rest) :
    bracket.nesting 0 lead = 0 ↔ foldedText bracket lead <+: (fold bracket source).base.reverse := by
  obtain ⟨more, upper, shape⟩ := place.last
  rw [← fold_depth, shape, Folded.grown, ← Folded.append_append, foldedText]
  obtain ⟨base, layers⟩ := fold bracket lead
  cases layers with
  | nil =>
      have text := Folded.append_text bracket ⟨base, []⟩ (run ++ more)
      have depth := Folded.append_depth ⟨base, []⟩ (run ++ more)
      rw [Folded.text, List.length_eq_zero_iff.mp depth] at text
      simp only [List.length_nil, true_iff]
      exact ⟨run ++ more, by simpa using text.symm⟩
  | cons layer layers =>
      rw [Folded.append_layer]
      constructor
      · intro outside
        exact absurd outside (Nat.succ_ne_zero _)
      · intro within
        have length := within.length_le
        simp only [Folded.text, List.reverse_cons, List.flatMap_append, List.flatMap_cons,
          List.flatMap_nil, List.length_append, List.length_cons] at length
        omega

section Order

variable (bracket : Bracket)

/-- Folding a longer text replaces the opening bracket of a group by a pair, so the folded texts grow
in the lexical order in which the closing bracket is the greatest character. -/
def Bracket.Precedes (one two : Char) : Prop := one ≠ bracket.closing ∧ two = bracket.closing

def Folded.Proper (state : Folded) : Prop :=
  ∀ layer ∈ state.layers, layer.getLast? ≠ some bracket.closing

variable {bracket}

theorem Folded.Proper.push {state : Folded} (proper : state.Proper bracket) (c : Char)
    (plain : c ≠ bracket.closing) : (state.push c).Proper bracket := by
  obtain ⟨base, layers⟩ := state
  cases layers with
  | nil => exact proper
  | cons top layers =>
      refine List.forall_mem_cons.mpr ⟨?_, fun layer member => proper layer (List.mem_cons_of_mem _ member)⟩
      rw [List.getLast?_cons]
      have here := proper top List.mem_cons_self
      cases last : top.getLast? with
      | none => simpa using plain
      | some first => simpa [last] using here

variable (distinct : bracket.closing ≠ bracket.opening)
include distinct

theorem Folded.Proper.step {state : Folded} (proper : state.Proper bracket) (c : Char) :
    (state.step bracket c).Proper bracket := by
  unfold Folded.step
  split
  · exact List.forall_mem_cons.mpr ⟨nofun, proper⟩
  · split
    · obtain ⟨base, layers⟩ := state
      cases layers with
      | nil => exact nofun
      | cons layer layers =>
          have outer : Proper bracket ⟨base, layers⟩ := fun other member =>
            proper other (List.mem_cons_of_mem layer member)
          have opened := outer.push bracket.opening (Ne.symm distinct)
          cases layers with
          | nil => exact nofun
          | cons below layers =>
              refine List.forall_mem_cons.mpr ⟨?_, fun other member =>
                opened other (List.mem_cons_of_mem _ member)⟩
              rw [List.getLast?_cons_cons]
              exact opened _ List.mem_cons_self
    · next other => exact proper.push c other

theorem fold_proper (source : Text) : (fold bracket source).Proper bracket := by
  induction source using List.reverseRecOn with
  | nil => exact nofun
  | append_singleton source last ih =>
      rw [fold_concat]
      exact ih.step distinct last

theorem Folded.Proper.step_precedes {state : Folded} (proper : state.Proper bracket) (c : Char) :
    List.Lex bracket.Precedes (state.text bracket) ((state.step bracket c).text bracket) := by
  by_cases closes : c = bracket.closing ∧ state.layers ≠ []
  · obtain ⟨base, layers⟩ := state
    obtain ⟨rfl, some_open⟩ := closes
    obtain ⟨layer, layers, rfl⟩ := List.exists_cons_of_ne_nil some_open
    rw [step_closing bracket distinct, append_text, layer_text]
    apply List.Lex.append_left
    apply List.Lex.cons
    have first := proper layer List.mem_cons_self
    rw [← List.head?_reverse] at first
    cases shape : layer.reverse with
    | nil => exact List.Lex.nil
    | cons head rest => exact List.Lex.rel ⟨by simpa [shape] using first, rfl⟩
  · have keeps : c = bracket.closing → state.layers = [] := by tauto
    have later := List.Lex.append_left bracket.Precedes (List.Lex.nil (a := c) (l := [])) (state.text bracket)
    rwa [List.append_nil, ← step_text bracket state c keeps] at later

theorem foldedText_precedes (front more : Text) (some_char : more ≠ []) :
    List.Lex bracket.Precedes (foldedText bracket front) (foldedText bracket (front ++ more)) := by
  induction more using List.reverseRecOn with
  | nil => exact absurd rfl some_char
  | append_singleton more last ih =>
      have step := (fold_proper distinct (front ++ more)).step_precedes distinct last
      rw [← fold_concat, ← foldedText, ← foldedText, List.append_assoc] at step
      by_cases alone : more = []
      · subst alone
        rwa [List.append_nil] at step
      · -- No character both is the greatest and precedes another one.
        exact List.lex_trans (fun first second => absurd first.2 second.1) (ih alone) step

/-- Two places of one source fold to different texts. -/
theorem place_unique {source front lead : Text} (inFront : front <+: source) (inLead : lead <+: source)
    (same : foldedText bracket front = foldedText bracket lead) : front = lead := by
  have apart (front more : Text) (same : foldedText bracket front = foldedText bracket (front ++ more)) :
      front = front ++ more := by
    by_contra longer
    have some_char : more ≠ [] := fun empty => longer (by rw [empty, List.append_nil])
    have precedes := foldedText_precedes distinct front more some_char
    rw [← same] at precedes
    exact List.lex_irrefl (fun c self => self.1 self.2) _ precedes
  rcases List.prefix_or_prefix_of_prefix inFront inLead with shorter | longer
  · obtain ⟨more, rfl⟩ := shorter
    exact apart front more same
  · obtain ⟨more, rfl⟩ := longer
    exact (apart lead more same.symm).symm

end Order

end ScriptSense
