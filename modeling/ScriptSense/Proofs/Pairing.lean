import ScriptSense.Proofs.Nesting
import ScriptSense.Proofs.Places

/-!
Folding against matched brackets. Brackets are matched with a stack that holds places of the source and
no text. Folding holds one layer of text for each bracket that waits on the stack; what is below a layer
is what is left of the text in front of its bracket, at every step, so the places recorded there never
change. A fold can therefore be kept in one buffer that is cut at recorded places.
-/
namespace ScriptSense

/-- Brackets matched with a stack: the places of the opening brackets without a partner so far, the last
one first, and the places of partners. -/
structure Pairing where
  waiting : List Nat
  pairs : List (Nat × Nat)
  deriving DecidableEq, Repr

namespace Pairing

def read (bracket : Bracket) (pairing : Pairing) (entry : Char × Nat) : Pairing :=
  if entry.1 = bracket.opening then { pairing with waiting := entry.2 :: pairing.waiting }
  else if entry.1 = bracket.closing then
    match pairing.waiting with
    | [] => pairing
    | opener :: outer => ⟨outer, (opener, entry.2) :: pairing.pairs⟩
  else pairing

def ofText (bracket : Bracket) (source : Text) : Pairing :=
  source.zipIdx.foldl (read bracket) ⟨[], []⟩

theorem ofText_concat (bracket : Bracket) (source : Text) (c : Char) :
    ofText bracket (source ++ [c]) = (ofText bracket source).read bracket (c, source.length) := by
  rw [ofText, List.zipIdx_append, List.foldl_append]
  simp [ofText]

/-- What one character does: it waits, it is the partner of the last that waits, or it changes nothing. -/
theorem read_cases (bracket : Bracket) (pairing : Pairing) (c : Char) (place : Nat) :
    (c = bracket.opening ∧
        pairing.read bracket (c, place) = ⟨place :: pairing.waiting, pairing.pairs⟩) ∨
      (∃ opener outer, c = bracket.closing ∧ bracket.closing ≠ bracket.opening ∧
        pairing.waiting = opener :: outer ∧
        pairing.read bracket (c, place) = ⟨outer, (opener, place) :: pairing.pairs⟩) ∨
      (c ≠ bracket.opening ∧ (c = bracket.closing → pairing.waiting = []) ∧
        pairing.read bracket (c, place) = pairing) := by
  obtain ⟨waiting, pairs⟩ := pairing
  by_cases opens : c = bracket.opening
  · exact .inl ⟨opens, by simp [read, opens]⟩
  · by_cases closes : c = bracket.closing
    · cases waiting with
      | nil => exact .inr (.inr ⟨opens, fun _ => rfl, by simp [read, opens]⟩)
      | cons opener outer =>
          exact .inr (.inl ⟨opener, outer, closes, closes ▸ opens, rfl, by simp [read, opens, ← closes]⟩)
    · exact .inr (.inr ⟨opens, fun same => absurd same closes, by simp [read, opens, closes]⟩)

end Pairing

def inside (pairs : List (Nat × Nat)) (place : Nat) : Bool :=
  pairs.any fun pair => decide (pair.1 < place) && decide (place < pair.2)

def shown (pairs : List (Nat × Nat)) (start : Nat) (text : Text) : Text :=
  ((text.zipIdx start).filter fun entry => !inside pairs entry.2).map (·.1)

def unpartnered (bracket : Bracket) (pairs : List (Nat × Nat)) (source : Text) : List Nat :=
  (source.zipIdx.filter fun entry =>
    entry.1 = bracket.opening && pairs.all (·.1 != entry.2)).map (·.2)

theorem shown_append (pairs : List (Nat × Nat)) (start : Nat) (front back : Text) :
    shown pairs start (front ++ back) =
      shown pairs start front ++ shown pairs (start + front.length) back := by
  rw [shown, List.zipIdx_append, List.filter_append, List.map_append]
  rfl

theorem shown_congr (pairs others : List (Nat × Nat)) (start : Nat) (text : Text)
    (same : ∀ place, start ≤ place → place < start + text.length →
      inside pairs place = inside others place) : shown pairs start text = shown others start text := by
  rw [shown, shown]
  congr 1
  refine List.filter_congr fun entry member => ?_
  rw [same entry.2 (List.le_snd_of_mem_zipIdx member) (List.snd_lt_add_of_mem_zipIdx member)]

theorem shown_nothing (pairs : List (Nat × Nat)) (start : Nat) (text : Text)
    (hidden : ∀ place, start ≤ place → place < start + text.length → inside pairs place = true) :
    shown pairs start text = [] := by
  rw [shown, List.map_eq_nil_iff, List.filter_eq_nil_iff]
  intro entry member
  simp [hidden entry.2 (List.le_snd_of_mem_zipIdx member) (List.snd_lt_add_of_mem_zipIdx member)]

theorem shown_one (pairs : List (Nat × Nat)) (place : Nat) (c : Char)
    (apart : inside pairs place = false) : shown pairs place [c] = [c] := by
  simp [shown, apart]

theorem unpartnered_concat (bracket : Bracket) (pairs : List (Nat × Nat)) (source : Text) (c : Char) :
    unpartnered bracket pairs (source ++ [c]) = unpartnered bracket pairs source ++
      if c = bracket.opening ∧ ∀ pair ∈ pairs, pair.1 ≠ source.length then [source.length] else [] := by
  have decided : (decide (c = bracket.opening) && pairs.all (·.1 != source.length)) = true ↔
      c = bracket.opening ∧ ∀ pair ∈ pairs, pair.1 ≠ source.length := by simp
  rw [unpartnered, List.zipIdx_append, List.filter_append, List.map_append, Nat.zero_add,
    List.zipIdx_singleton, List.filter_singleton]
  simp only [← decided]
  cases decide (c = bracket.opening) && pairs.all (·.1 != source.length) with
  | true => rfl
  | false => rfl

/-- A new pair takes the place of its opening bracket from the list. -/
theorem unpartnered_cons (bracket : Bracket) (pair : Nat × Nat) (pairs : List (Nat × Nat))
    (source : Text) : unpartnered bracket (pair :: pairs) source =
      (unpartnered bracket pairs source).filter (· != pair.1) := by
  rw [unpartnered, unpartnered, List.filter_map, List.filter_filter]
  congr 1
  refine List.filter_congr fun entry _ => ?_
  simp only [List.all_cons, Function.comp_apply, bne_comm (a := pair.1)]
  exact Bool.and_left_comm _ _ _

structure Pairing.Sound (bracket : Bracket) (source : Text) (pairing : Pairing) : Prop where
  descending : pairing.waiting.Pairwise (· > ·)
  openers : ∀ place ∈ pairing.waiting, source[place]? = some bracket.opening
  ordered : ∀ pair ∈ pairing.pairs, pair.1 < pair.2 ∧ pair.2 < source.length
  apart : ∀ pair ∈ pairing.pairs, ∀ place ∈ pairing.waiting, place < pair.1 ∨ pair.2 < place
  unpartnered : unpartnered bracket pairing.pairs source = pairing.waiting.reverse

namespace Pairing.Sound

variable {bracket : Bracket} {source : Text} {waiting : List Nat} {pairs : List (Nat × Nat)}

theorem empty : Sound bracket [] ⟨[], []⟩ where
  descending := .nil
  openers := nofun
  ordered := nofun
  apart := nofun
  unpartnered := rfl

theorem waiting_lt (sound : Sound bracket source ⟨waiting, pairs⟩) :
    ∀ place ∈ waiting, place < source.length := fun place member =>
  (List.getElem?_eq_some_iff.mp (sound.openers place member)).1

theorem openers_concat (sound : Sound bracket source ⟨waiting, pairs⟩) (c : Char) :
    ∀ place ∈ waiting, (source ++ [c])[place]? = some bracket.opening := by
  intro place member
  rw [List.getElem?_append_left (sound.waiting_lt place member)]
  exact sound.openers place member

theorem ordered_concat (sound : Sound bracket source ⟨waiting, pairs⟩) (c : Char) :
    ∀ pair ∈ pairs, pair.1 < pair.2 ∧ pair.2 < (source ++ [c]).length := by
  intro pair member
  obtain ⟨order, bound⟩ := sound.ordered pair member
  exact ⟨order, by simpa using Nat.lt_succ_of_lt bound⟩

theorem opened (sound : Sound bracket source ⟨waiting, pairs⟩) :
    Sound bracket (source ++ [bracket.opening]) ⟨source.length :: waiting, pairs⟩ where
  descending := List.pairwise_cons.mpr ⟨sound.waiting_lt, sound.descending⟩
  openers := List.forall_mem_cons.mpr ⟨by simp, sound.openers_concat _⟩
  ordered := sound.ordered_concat _
  apart pair member := List.forall_mem_cons.mpr
    ⟨.inr (sound.ordered pair member).2, sound.apart pair member⟩
  unpartnered := by
    have fresh : ∀ pair ∈ pairs, pair.1 ≠ source.length := by
      intro pair member
      obtain ⟨order, bound⟩ := sound.ordered pair member
      omega
    have before := sound.unpartnered
    dsimp only at before
    rw [unpartnered_concat, before, if_pos ⟨rfl, fresh⟩, List.reverse_cons]

theorem closed {opener : Nat} (sound : Sound bracket source ⟨opener :: waiting, pairs⟩)
    (distinct : bracket.closing ≠ bracket.opening) :
    Sound bracket (source ++ [bracket.closing]) ⟨waiting, (opener, source.length) :: pairs⟩ := by
  obtain ⟨below, descending⟩ := List.pairwise_cons.mp sound.descending
  have bound := sound.waiting_lt opener List.mem_cons_self
  refine ⟨descending, ?_, ?_, ?_, ?_⟩
  · exact fun place member => sound.openers_concat _ place (List.mem_cons_of_mem opener member)
  · exact List.forall_mem_cons.mpr ⟨⟨bound, by simp⟩, sound.ordered_concat _⟩
  · refine List.forall_mem_cons.mpr ⟨fun place member => .inl (below place member), ?_⟩
    exact fun pair member place later => sound.apart pair member place (List.mem_cons_of_mem opener later)
  · have before := sound.unpartnered
    have others : ∀ place ∈ waiting.reverse, (place != opener) = true := by
      intro place member
      have lower := below place (List.mem_reverse.mp member)
      exact bne_iff_ne.mpr (by omega)
    dsimp only at before
    rw [unpartnered_concat, unpartnered_cons, before, if_neg (fun opens => distinct opens.1),
      List.reverse_cons, List.filter_append, List.filter_eq_self.mpr others]
    simp

theorem passed {c : Char} (sound : Sound bracket source ⟨waiting, pairs⟩) (other : c ≠ bracket.opening) :
    Sound bracket (source ++ [c]) ⟨waiting, pairs⟩ where
  descending := sound.descending
  openers := sound.openers_concat c
  ordered := sound.ordered_concat c
  apart := sound.apart
  unpartnered := by
    rw [unpartnered_concat, if_neg (fun opens => other opens.1), List.append_nil]
    exact sound.unpartnered

end Pairing.Sound

theorem Pairing.Sound.read {bracket : Bracket} {source : Text} {pairing : Pairing}
    (sound : pairing.Sound bracket source) (c : Char) :
    (pairing.read bracket (c, source.length)).Sound bracket (source ++ [c]) := by
  obtain ⟨waiting, pairs⟩ := pairing
  rcases Pairing.read_cases bracket ⟨waiting, pairs⟩ c source.length with
    ⟨rfl, next⟩ | ⟨opener, outer, rfl, distinct, rfl, next⟩ | ⟨other, _, next⟩
  · rw [next]
    exact sound.opened
  · rw [next]
    exact sound.closed distinct
  · rw [next]
    exact sound.passed other

def shownBefore (pairs : List (Nat × Nat)) (source : Text) (place : Nat) : Text :=
  shown pairs 0 (source.take place)

theorem shownBefore_concat (pairs : List (Nat × Nat)) (source : Text) (c : Char) (place : Nat)
    (within : place ≤ source.length) :
    shownBefore pairs (source ++ [c]) place = shownBefore pairs source place := by
  rw [shownBefore, List.take_append_of_le_length within]
  rfl

theorem shownBefore_last (pairs : List (Nat × Nat)) (source : Text) (c : Char)
    (apart : inside pairs source.length = false) :
    shownBefore pairs (source ++ [c]) (source ++ [c]).length =
      shownBefore pairs source source.length ++ [c] := by
  rw [shownBefore, shownBefore, List.take_length, List.take_length, shown_append, Nat.zero_add,
    shown_one pairs source.length c apart]

/-- A new pair hides nothing up to its opening bracket. -/
theorem shownBefore_pair (pairs : List (Nat × Nat)) (opener closer : Nat) (source : Text) (place : Nat)
    (within : place ≤ opener) :
    shownBefore ((opener, closer) :: pairs) source place = shownBefore pairs source place := by
  refine shown_congr _ _ _ _ fun earlier _ bound => ?_
  rw [List.length_take] at bound
  have outer : ¬opener < earlier := by omega
  simp [inside, outer]

/-- Of a group that is closed only the brackets are shown. -/
theorem shownBefore_closed (bracket : Bracket) (pairs : List (Nat × Nat)) (source : Text) (opener : Nat)
    (opens : source[opener]? = some bracket.opening) (apart : inside pairs opener = false)
    (ended : inside pairs source.length = false) :
    shownBefore ((opener, source.length) :: pairs) (source ++ [bracket.closing])
        (source ++ [bracket.closing]).length =
      shownBefore pairs source opener ++ [bracket.opening, bracket.closing] := by
  obtain ⟨bound, char⟩ := List.getElem?_eq_some_iff.mp opens
  have split : source = source.take opener ++ bracket.opening :: source.drop (opener + 1) := by
    rw [← char, List.getElem_cons_drop, List.take_append_drop]
  have length : (source.take opener).length = opener := List.length_take_of_le bound.le
  have reach : opener + 1 + (source.drop (opener + 1)).length = source.length := by
    rw [List.length_drop]
    omega
  let pairs' := (opener, source.length) :: pairs
  have front : shown pairs' 0 (source.take opener) = shownBefore pairs source opener :=
    shownBefore_pair pairs opener source.length source opener (Nat.le_refl opener)
  have first : shown pairs' opener [bracket.opening] = [bracket.opening] := by
    apply shown_one
    simpa [pairs', inside] using apart
  have between : shown pairs' (opener + 1) (source.drop (opener + 1)) = [] := by
    apply shown_nothing
    intro place behind before
    have hidden : opener < place ∧ place < source.length := by omega
    simp [pairs', inside, hidden]
  have last : shown pairs' source.length [bracket.closing] = [bracket.closing] := by
    apply shown_one
    simpa [pairs', inside] using ended
  calc shownBefore pairs' (source ++ [bracket.closing]) (source ++ [bracket.closing]).length
      = shown pairs' 0 (source.take opener ++ ([bracket.opening] ++
          (source.drop (opener + 1) ++ [bracket.closing]))) := by
        rw [shownBefore, List.take_length]
        conv_lhs => rw [split]
        simp
    _ = shown pairs' 0 (source.take opener) ++ (shown pairs' opener [bracket.opening] ++
          (shown pairs' (opener + 1) (source.drop (opener + 1)) ++
            shown pairs' source.length [bracket.closing])) := by
        rw [shown_append, shown_append, shown_append, Nat.zero_add, length, List.length_singleton, reach]
    _ = shownBefore pairs source opener ++ [bracket.opening, bracket.closing] := by
        rw [front, first, between, last]
        rfl

namespace Folded

/-- The text of a state is what a view shows in front of a place, and folding that text again gives the
state. The same holds below each layer, of the place of the bracket that waits for it. -/
inductive Tracks (bracket : Bracket) (view : Nat → Text) : Nat → Folded → List Nat → Prop where
  | outside {place : Nat} {base : Text} (shows : text bracket ⟨base, []⟩ = view place)
      (again : fold bracket (view place) = ⟨base, []⟩) : Tracks bracket view place ⟨base, []⟩ []
  | inside {place opener : Nat} {base layer : Text} {layers : List Text} {outer : List Nat}
      (below : Tracks bracket view opener ⟨base, layers⟩ outer) (behind : opener < place)
      (shows : text bracket ⟨base, layer :: layers⟩ = view place)
      (again : fold bracket (view place) = ⟨base, layer :: layers⟩) :
      Tracks bracket view place ⟨base, layer :: layers⟩ (opener :: outer)

namespace Tracks

variable {bracket : Bracket} {view : Nat → Text} {place : Nat} {state : Folded} {waiting : List Nat}

theorem text_view (tracks : Tracks bracket view place state waiting) : state.text bracket = view place := by
  cases tracks with
  | outside shows again => exact shows
  | inside below behind shows again => exact shows

theorem fold_view (tracks : Tracks bracket view place state waiting) :
    fold bracket (view place) = state := by
  cases tracks with
  | outside shows again => exact again
  | inside below behind shows again => exact again

/-- Only what is shown up to the place counts. -/
theorem congr {other : Nat → Text} (tracks : Tracks bracket view place state waiting)
    (same : ∀ earlier ≤ place, other earlier = view earlier) :
    Tracks bracket other place state waiting := by
  induction tracks with
  | @outside place _ shows again =>
      rw [← same place (Nat.le_refl _)] at shows again
      exact .outside shows again
  | @inside place _ _ _ _ _ _ behind shows again ih =>
      rw [← same place (Nat.le_refl _)] at shows again
      exact .inside (ih fun earlier within => same earlier (within.trans behind.le)) behind shows again

/-- Text that goes to the innermost layer changes nothing below it. -/
theorem append {later : Nat} {added : Text} (tracks : Tracks bracket view place state waiting)
    (further : place ≤ later) (grown : view later = view place ++ added)
    (reads : added.foldl (Folded.step bracket) state = state.append added) :
    Tracks bracket view later (state.append added) waiting := by
  have shows : (state.append added).text bracket = view later := by
    rw [append_text, tracks.text_view, grown]
  have again : fold bracket (view later) = state.append added := by
    rw [grown, fold, List.foldl_append, ← fold, tracks.fold_view, reads]
  cases tracks with
  | outside _ _ =>
      rw [append_base] at shows again ⊢
      exact .outside shows again
  | inside below behind _ _ =>
      rw [append_layer] at shows again ⊢
      exact .inside below (Nat.lt_of_lt_of_le behind further) shows again

theorem opened (tracks : Tracks bracket view place state waiting)
    (grown : view (place + 1) = view place ++ [bracket.opening]) :
    Tracks bracket view (place + 1) ⟨state.base, [] :: state.layers⟩ (place :: waiting) := by
  refine .inside tracks (Nat.lt_succ_self place) ?_ ?_
  · rw [open_text, tracks.text_view, grown]
  · rw [grown, fold_concat, tracks.fold_view, step_opening]

theorem openings_view (tracks : Tracks bracket view place state waiting) :
    state.openings bracket = waiting.reverse.map fun opener => Text.byteLength (view opener) := by
  induction tracks with
  | outside shows again => simp [openings]
  | inside below behind shows again ih =>
      rw [openings, ih, below.text_view, List.reverse_cons, List.map_append]
      rfl

end Tracks

end Folded

theorem Pairing.Sound.uncovered {bracket : Bracket} {source : Text} {pairing : Pairing}
    (sound : pairing.Sound bracket source) (place : Nat)
    (reached : place ∈ pairing.waiting ∨ place = source.length) : inside pairing.pairs place = false := by
  rw [inside, List.any_eq_false]
  intro pair member
  have apart : place < pair.1 ∨ pair.2 < place := by
    rcases reached with waits | rfl
    · exact sound.apart pair member place waits
    · exact .inr (sound.ordered pair member).2
  have ordered := (sound.ordered pair member).1
  simp only [Bool.and_eq_true, decide_eq_true_eq]
  omega

/-- Folding and matching stay in step: what a character does to the stack it does to the layers. -/
theorem Folded.Tracks.step {bracket : Bracket} {source : Text} {state : Folded} {pairing : Pairing}
    (sound : pairing.Sound bracket source)
    (tracks : Tracks bracket (shownBefore pairing.pairs source) source.length state pairing.waiting)
    (c : Char) :
    Tracks bracket (shownBefore (pairing.read bracket (c, source.length)).pairs (source ++ [c]))
      (source ++ [c]).length (state.step bracket c)
      (pairing.read bracket (c, source.length)).waiting := by
  have length : (source ++ [c]).length = source.length + 1 := List.length_append
  have ended := sound.uncovered source.length (.inr rfl)
  have earlierShown (pairs : List (Nat × Nat)) (place : Nat) (within : place ≤ source.length) :=
    shownBefore_concat pairs source c place within
  have kept := tracks.congr fun place within => earlierShown pairing.pairs place within
  have last := shownBefore_last pairing.pairs source c ended
  rw [← earlierShown _ _ (Nat.le_refl _)] at last
  rcases Pairing.read_cases bracket pairing c source.length with
    ⟨rfl, next⟩ | ⟨opener, outer, rfl, distinct, waits, next⟩ | ⟨other, bottom, next⟩
  · rw [next, Folded.step_opening, length]
    exact kept.opened (length ▸ last)
  · have member : opener ∈ pairing.waiting := waits ▸ List.mem_cons_self
    have closed := shownBefore_closed bracket pairing.pairs source opener (sound.openers opener member)
      (sound.uncovered opener (.inl member)) ended
    rw [waits] at tracks
    cases tracks with
    | inside below behind _ _ =>
        have same (place : Nat) (within : place ≤ opener) :
            shownBefore ((opener, source.length) :: pairing.pairs) (source ++ [bracket.closing]) place =
              shownBefore pairing.pairs source place := by
          rw [earlierShown _ place (within.trans behind.le), shownBefore_pair _ _ _ _ _ within]
        rw [next, Folded.step_closing bracket distinct]
        refine (below.congr same).append (by omega) ?_ (Folds.group distinct Folds.nil _)
        rw [same opener (Nat.le_refl _), closed]
  · have pushed : state.step bracket c = state.append [c] := by
      refine Folded.step_push bracket state c other fun closes => ?_
      rw [bottom closes] at tracks
      cases tracks
      rfl
    rw [next, pushed]
    exact kept.append (by omega) last pushed

theorem fold_tracks (bracket : Bracket) (source : Text) :
    (Pairing.ofText bracket source).Sound bracket source ∧
      Folded.Tracks bracket (shownBefore (Pairing.ofText bracket source).pairs source) source.length
        (fold bracket source) (Pairing.ofText bracket source).waiting := by
  induction source using List.reverseRecOn with
  | nil => exact ⟨.empty, .outside rfl rfl⟩
  | append_singleton source last ih =>
      obtain ⟨sound, tracks⟩ := ih
      rw [Pairing.ofText_concat, fold_concat]
      exact ⟨sound.read last, tracks.step sound last⟩

namespace Folded

theorem append_openings (bracket : Bracket) (state : Folded) (added : Text) :
    (state.append added).openings bracket = state.openings bracket := by
  obtain ⟨base, layers⟩ := state
  cases layers with
  | nil => rw [append_base, openings, openings]
  | cons layer layers => rw [append_layer, openings, openings]

/-- The recorded places ascend, and all of them are in front of the end of the text. -/
theorem openings_ascend (bracket : Bracket) (state : Folded) :
    (state.openings bracket).Pairwise (· < ·) ∧
      ∀ offset ∈ state.openings bracket, offset < Text.byteLength (state.text bracket) := by
  obtain ⟨base, layers⟩ := state
  induction layers with
  | nil => simp [openings]
  | cons layer layers ih =>
      obtain ⟨ascending, bound⟩ := ih
      have longer : Text.byteLength (text bracket ⟨base, layers⟩) <
          Text.byteLength (text bracket ⟨base, layer :: layers⟩) := by
        have wide := bracket.opening.utf8Size_pos
        rw [layer_text, Text.byteLength_append, Text.byteLength]
        omega
      rw [openings]
      constructor
      · refine List.pairwise_append.mpr ⟨ascending, List.pairwise_singleton _ _, ?_⟩
        intro offset member other single
        rw [List.mem_singleton.mp single]
        exact bound offset member
      · intro offset member
        rcases List.mem_append.mp member with lower | single
        · exact (bound offset lower).trans longer
        · rw [List.mem_singleton.mp single]
          exact longer

end Folded

structure Buffer where
  kept : Text
  recorded : List Nat
  deriving DecidableEq, Repr

namespace Buffer

/-- An opening bracket records the end of the buffer. A closing one cuts the buffer behind the bracket
that was recorded last. -/
def step (bracket : Bracket) (buffer : Buffer) (c : Char) : Buffer :=
  if c = bracket.opening then ⟨buffer.kept ++ [c], Text.byteLength buffer.kept :: buffer.recorded⟩
  else if c = bracket.closing then
    match buffer.recorded with
    | [] => ⟨buffer.kept ++ [c], []⟩
    | start :: outer =>
        ⟨Text.takeBytes (start + bracket.opening.utf8Size) buffer.kept ++ [c], outer⟩
  else ⟨buffer.kept ++ [c], buffer.recorded⟩

def ofFolded (bracket : Bracket) (state : Folded) : Buffer :=
  ⟨state.text bracket, (state.openings bracket).reverse⟩

theorem ofFolded_layer (bracket : Bracket) (base layer : Text) (layers : List Text) :
    ofFolded bracket ⟨base, layer :: layers⟩ =
      ⟨Folded.text bracket ⟨base, layers⟩ ++ bracket.opening :: layer.reverse,
        Text.byteLength (Folded.text bracket ⟨base, layers⟩) ::
          (Folded.openings bracket ⟨base, layers⟩).reverse⟩ := by
  rw [ofFolded, Folded.layer_text, Folded.openings, List.reverse_append]
  rfl

theorem ofFolded_append (bracket : Bracket) (state : Folded) (added : Text) :
    ofFolded bracket (state.append added) =
      ⟨state.text bracket ++ added, (state.openings bracket).reverse⟩ := by
  rw [ofFolded, Folded.append_text, Folded.append_openings]

theorem step_kept (bracket : Bracket) (buffer : Buffer) (c : Char) (notOpening : c ≠ bracket.opening)
    (keeps : c = bracket.closing → buffer.recorded = []) :
    buffer.step bracket c = ⟨buffer.kept ++ [c], buffer.recorded⟩ := by
  obtain ⟨kept, recorded⟩ := buffer
  rw [step, if_neg notOpening]
  split
  · next closes =>
      obtain rfl : recorded = [] := keeps closes
      rfl
  · rfl

/-- A bracket that stands where it was recorded is not cut off, and all of its group is. -/
theorem step_cut (bracket : Bracket) (distinct : bracket.closing ≠ bracket.opening)
    (below group : Text) (outer : List Nat) :
    step bracket ⟨below ++ bracket.opening :: group, Text.byteLength below :: outer⟩ bracket.closing =
      ⟨below ++ [bracket.opening, bracket.closing], outer⟩ := by
  have cut := Text.takeBytes_append (below ++ [bracket.opening]) group
  rw [Text.byteLength_append, Text.byteLength, Text.byteLength, Nat.add_zero, List.append_assoc,
    List.singleton_append] at cut
  rw [step, if_neg distinct, if_pos rfl]
  dsimp only
  rw [cut, List.append_assoc]
  rfl

theorem step_ofFolded (bracket : Bracket) (state : Folded) (c : Char) :
    (ofFolded bracket state).step bracket c = ofFolded bracket (state.step bracket c) := by
  obtain ⟨base, layers⟩ := state
  by_cases opens : c = bracket.opening
  · rw [opens, Folded.step_opening, ofFolded_layer, step, if_pos rfl]
    rfl
  by_cases pops : c = bracket.closing ∧ layers ≠ []
  · obtain ⟨rfl, some_layer⟩ := pops
    obtain ⟨layer, layers, rfl⟩ := List.exists_cons_of_ne_nil some_layer
    rw [Folded.step_closing bracket opens, ofFolded_append, ofFolded_layer, step_cut bracket opens]
  · have bottom (closes : c = bracket.closing) : layers = [] := by tauto
    have pushed : Folded.step bracket ⟨base, layers⟩ c = Folded.append ⟨base, layers⟩ [c] :=
      Folded.step_push bracket _ c opens bottom
    rw [pushed, ofFolded_append]
    refine step_kept bracket _ c opens fun closes => ?_
    rw [bottom closes, ofFolded, Folded.openings, List.reverse_nil]

/-- Reading a source into one buffer, with cuts at recorded places, is folding it. -/
theorem run_fold (bracket : Bracket) (source : Text) :
    source.foldl (step bracket) ⟨[], []⟩ =
      ⟨foldedText bracket source, ((fold bracket source).openings bracket).reverse⟩ := by
  have start : ofFolded bracket Folded.empty = ⟨[], []⟩ := by
    rw [ofFolded, Folded.empty, Folded.openings]
    rfl
  rw [← start]
  exact List.foldl_hom (ofFolded bracket) (step_ofFolded bracket)

-- A group in a group, a bracket that closes nothing, and two groups that stay open.
example : "a ( b ( c ) d ) e ) f ( g ( h".toList.foldl (step parens) ⟨[], []⟩ =
    ⟨"a () e ) f ( g ( h".toList, [15, 11]⟩ := by decide

end Buffer

/-- A folded text is folded already. -/
theorem fold_foldedText (bracket : Bracket) (source : Text) :
    fold bracket (foldedText bracket source) = fold bracket source := by
  obtain ⟨_, tracks⟩ := fold_tracks bracket source
  rw [foldedText, tracks.text_view, tracks.fold_view]

/-- Folding empties the matched pairs. It leaves the characters strictly inside of no pair; the places it
reports ascend, and are those at which the opening brackets without a partner stand in what is left; and
a folded text can take the place of its source in front of any other text. -/
theorem fold_pairs (bracket : Bracket) (source : Text) :
    let pairs := (Pairing.ofText bracket source).pairs
    foldedText bracket source = shown pairs 0 source ∧
      ((fold bracket source).openings bracket).Pairwise (· < ·) ∧
      (fold bracket source).openings bracket =
        (unpartnered bracket pairs source).map (fun place =>
          Text.byteLength (shown pairs 0 (source.take place))) ∧
      ∀ more,
        foldedText bracket (source ++ more) = foldedText bracket (foldedText bracket source ++ more) ∧
          (fold bracket (source ++ more)).openings bracket =
            (fold bracket (foldedText bracket source ++ more)).openings bracket := by
  intro pairs
  obtain ⟨sound, tracks⟩ := fold_tracks bracket source
  have text : foldedText bracket source = shown pairs 0 source := by
    have whole := tracks.text_view
    rwa [shownBefore, List.take_length] at whole
  refine ⟨text, (Folded.openings_ascend bracket _).1, ?_, fun more => ?_⟩
  · rw [sound.unpartnered]
    exact tracks.openings_view
  · have joined : fold bracket (foldedText bracket source ++ more) = fold bracket (source ++ more) := by
      rw [fold, List.foldl_append, ← fold, fold_foldedText, fold, fold, List.foldl_append]
    rw [foldedText, foldedText, joined]
    exact ⟨rfl, rfl⟩

end ScriptSense
