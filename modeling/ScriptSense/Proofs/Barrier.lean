import ScriptSense.Proofs.Found
import ScriptSense.Proofs.Sighting

/-!
A character that cannot stand in a type is a barrier for the search. No reader goes past it, so what
is found in front of it is the same whatever follows, and the search begins anew behind it.
-/
namespace ScriptSense

/-- In front of the stop the reader refuses, or it leaves a tail of the text. Neither depends on what
follows the stop. -/
def Confined {α β : Type} (stop : Char) (join : β → Text → α) (read : Text → Option α) : Prop :=
  ∀ lead, (∀ rest, read (lead ++ stop :: rest) = none) ∨
    ∃ found tail, tail <:+ lead ∧
      ∀ rest, read (lead ++ stop :: rest) = some (join found (tail ++ stop :: rest))

def plainly : Unit → Text → Text := fun _ text => text

def paired {α β : Type} (join : β → Text → α) (found : Text × β) (text : Text) : Text × α :=
  (found.1, join found.2 text)

namespace Confined

variable {α β γ δ : Type} {stop : Char} {join : β → Text → α} {joined : δ → Text → γ}
variable {first : Text → Option α}

theorem elim {missing : Text → Option γ} {next : α → Option γ} (read : Confined stop join first)
    (otherwise : Confined stop joined missing)
    (goesOn : ∀ found, Confined stop joined fun text => next (join found text)) :
    Confined stop joined fun text => (first text).elim (missing text) next := by
  intro lead
  rcases read lead with refused | ⟨found, tail, suffix, accepted⟩
  · simp only [refused, Option.elim_none]
    exact otherwise lead
  · simp only [accepted, Option.elim_some]
    rcases goesOn found tail with refused | ⟨later, rest, further, accepted⟩
    · exact Or.inl refused
    · exact Or.inr ⟨later, rest, further.trans suffix, accepted⟩

theorem refuse : Confined stop joined fun _ => none := fun _ => Or.inl fun _ => rfl

theorem accept (found : β) : Confined stop join fun text => some (join found text) :=
  fun lead => Or.inr ⟨found, lead, List.suffix_rfl, fun _ => rfl⟩

theorem bind {next : α → Option γ} (read : Confined stop join first)
    (goesOn : ∀ found, Confined stop joined fun text => next (join found text)) :
    Confined stop joined fun text => (first text).bind next := by
  have same : (fun text => (first text).bind next) = fun text => (first text).elim none next := by
    funext text
    cases first text <;> rfl
  rw [same]
  exact read.elim refuse goesOn

theorem map {next : α → γ} (read : Confined stop join first)
    (goesOn : ∀ found, ∃ later, ∀ text, next (join found text) = joined later text) :
    Confined stop joined fun text => (first text).map next := by
  have same : (fun text => (first text).map next) =
      fun text => (first text).bind fun found => some (next found) := by
    funext text
    cases first text <;> rfl
  rw [same]
  refine read.bind fun found => ?_
  obtain ⟨later, shape⟩ := goesOn found
  simp only [shape]
  exact accept later

theorem pair (front : Text) (read : Confined stop join first) :
    Confined stop (paired join) fun text => (first text).map fun found => (front, found) :=
  read.map fun found => ⟨(front, found), fun _ => rfl⟩

theorem or {second : Text → Option α} (read : Confined stop join first)
    (otherwise : Confined stop join second) :
    Confined stop join fun text => (first text).or (second text) := by
  have same : (fun text => (first text).or (second text)) =
      fun text => (first text).elim (second text) some := by
    funext text
    cases first text <;> rfl
  rw [same]
  exact read.elim otherwise accept

end Confined

structure HaltsAt {α : Type} (rule : Rule α) (stop : Char) : Prop where
  confined : ∀ before, Confined stop Prod.mk (rule before)
  refuses : ∀ before rest, rule before (stop :: rest) = none

/-- In front of the stop it is settled whether the rule applies and what it leaves, whatever follows
the stop. -/
def Settled {α : Type} (rule : Rule α) (stop : Char) (lead : Text) : Prop :=
  ∀ tail, tail <:+ lead → ∀ before, (∀ rest, rule before (tail ++ stop :: rest) = none) ∨
    ∃ found left, left <:+ tail ++ [stop] ∧
      ∀ rest, rule before (tail ++ stop :: rest) = some (found, left ++ rest)

theorem HaltsAt.settled {α : Type} {rule : Rule α} {stop : Char} (halts : HaltsAt rule stop)
    (lead : Text) : Settled rule stop lead := by
  intro tail _ before
  rcases halts.confined before tail with refused | ⟨found, left, suffix, accepted⟩
  · exact Or.inl refused
  · obtain ⟨taken, rfl⟩ := suffix
    refine Or.inr ⟨found, left ++ [stop], ⟨taken, (List.append_assoc _ _ _).symm⟩, fun rest => ?_⟩
    rw [accepted, List.append_assoc]
    rfl

namespace Settled

variable {α : Type} {rule : Rule α} {stop : Char} {lead : Text}

-- The skipped characters belong to a match, and a match ends at the stop at the latest. So the
-- searches with and without a rest skip the same number of characters and meet again behind the stop.
theorem sightings_stop (settled : Settled rule stop lead) (rest : Text) (skip : Nat)
    (inside : skip ≤ lead.length + 1) (before : Option Char) :
    sightingsFrom rule skip before (lead ++ stop :: rest) =
      sightingsFrom rule skip before (lead ++ [stop]) ++
        (sightingsFrom rule 0 (some stop) rest).map (Sighting.behind (lead ++ [stop])) := by
  induction lead generalizing skip before with
  | nil =>
      cases skip with
      | succ skip =>
          obtain rfl : skip = 0 := Nat.le_zero.mp (Nat.le_of_succ_le_succ inside)
          simp only [List.nil_append, sightingsFrom, List.map_nil]
      | zero =>
          have here := settled [] List.suffix_rfl before
          simp only [List.nil_append] at here
          rcases here with refused | ⟨found, left, _, accepted⟩
          · simp only [List.nil_append, sightingsFrom, refused, List.map_nil]
          · have none_left : rest.length - (left ++ rest).length = 0 := by
              rw [List.length_append]
              omega
            simp only [List.nil_append, sightingsFrom, accepted, none_left, List.map_nil,
              List.cons_append]
  | cons first lead ih =>
      have later := ih fun tail suffix => settled tail (suffix.trans (List.suffix_cons first lead))
      cases skip with
      | succ skip =>
          simp only [List.cons_append, sightingsFrom]
          rw [later skip (Nat.le_of_succ_le_succ inside) (some first), List.map_append, behind_behind]
          rfl
      | zero =>
          rcases settled (first :: lead) List.suffix_rfl before with
            refused | ⟨found, left, suffix, accepted⟩
          · simp only [List.cons_append] at refused
            simp only [List.cons_append, sightingsFrom, refused]
            rw [later 0 (Nat.zero_le _) (some first), List.map_append, behind_behind]
            rfl
          · simp only [List.cons_append] at accepted
            simp only [List.cons_append, sightingsFrom, accepted]
            have skipped (rest : Text) : (lead ++ stop :: rest).length - (left ++ rest).length =
                lead.length + 1 - left.length := by
              simp only [List.length_append, List.length_cons]
              omega
            rw [skipped rest, skipped [], later _ (Nat.sub_le _ _) (some first), List.map_append,
              behind_behind]
            rfl

theorem findFrom_stop (settled : Settled rule stop lead) (rest : Text) (skip : Nat)
    (inside : skip ≤ lead.length + 1) (before : Option Char) :
    findFrom rule skip before (lead ++ stop :: rest) =
      findFrom rule skip before (lead ++ [stop]) ++ findFrom rule 0 (some stop) rest := by
  have seen := settled.sightings_stop rest skip inside before
  simp only [← found_sightingsFrom, seen, List.map_append, found_behind]

end Settled

namespace Text

theorem dropWhile_confined (drop : Char → Bool) (stop : Char) (refused : drop stop = false) :
    Confined stop plainly fun text => some (text.dropWhile drop) := by
  intro lead
  exact Or.inr ⟨(), lead.dropWhile drop, List.dropWhile_suffix drop, fun rest =>
    congrArg some (dropWhile_stop drop stop refused lead rest)⟩

theorem trimStart_confined (stop : Char) (refused : isBlank stop = false) :
    Confined stop plainly fun text => some (trimStart text) :=
  dropWhile_confined isBlank stop refused

theorem run?_confined (keep : Char → Bool) (stop : Char) (refused : keep stop = false) :
    Confined stop Prod.mk (run? keep) := by
  intro lead
  simp only [run?, span_stop keep stop refused]
  cases lead.takeWhile keep with
  | nil => exact Or.inl fun _ => rfl
  | cons first word =>
      exact Or.inr ⟨first :: word, lead.dropWhile keep, List.dropWhile_suffix keep, fun _ => rfl⟩

theorem after?_stop (word : Text) (stop : Char) (apart : stop ∉ word) (lead rest : Text) :
    after? word (lead ++ stop :: rest) = (after? word lead).map (· ++ stop :: rest) := by
  induction word generalizing lead with
  | nil => cases lead <;> rfl
  | cons first word ih =>
      rw [List.mem_cons, not_or] at apart
      cases lead with
      | nil => exact if_neg (Ne.symm apart.1)
      | cons head lead =>
          simp only [List.cons_append, after?]
          split
          · exact ih apart.2 lead
          · rfl

theorem after?_confined (word : Text) (stop : Char) (apart : stop ∉ word) :
    Confined stop plainly (after? word) := by
  intro lead
  simp only [after?_stop word stop apart]
  cases read : after? word lead with
  | none => exact Or.inl fun _ => rfl
  | some behind =>
      exact Or.inr ⟨(), behind, ⟨word, (after?_some word lead behind read).symm⟩, fun _ => rfl⟩

theorem afterSome?_stop (skip : Char → Bool) (stop : Char) (refused : skip stop = false)
    (lead rest : Text) :
    afterSome? skip (lead ++ stop :: rest) = (afterSome? skip lead).map (· ++ stop :: rest) := by
  cases lead with
  | nil => exact if_neg (by simp [refused])
  | cons first lead =>
      simp only [List.cons_append, afterSome?]
      split
      · exact congrArg some (dropWhile_stop skip stop refused lead rest)
      · rfl

theorem afterSome?_confined (skip : Char → Bool) (stop : Char) (refused : skip stop = false) :
    Confined stop plainly (afterSome? skip) := by
  intro lead
  simp only [afterSome?_stop skip stop refused]
  cases read : afterSome? skip lead with
  | none => exact Or.inl fun _ => rfl
  | some behind =>
      have split := (afterSome?_some skip lead behind read).1
      exact Or.inr ⟨(), behind, ⟨_, split.symm⟩, fun _ => rfl⟩

end Text

namespace TypeSpelling

theorem takeHandles_confined (stop : Char) (other : stop ≠ '@') :
    Confined stop Prod.mk fun text => some (takeHandles text) := by
  intro lead
  exact Or.inr ⟨lead.takeWhile (· == '@'), lead.dropWhile (· == '@'), List.dropWhile_suffix _,
    fun rest => congrArg some (Text.span_stop _ stop (by simpa using other) lead rest)⟩

theorem takePairs_confined (stop : Char) (notOpening : stop ≠ '[') (notClosing : stop ≠ ']') :
    Confined stop Prod.mk fun text => some (takePairs text) := by
  intro lead
  right
  induction lead using takePairs.induct with
  | case1 lead ih =>
      obtain ⟨pairs, tail, suffix, read⟩ := ih
      have further : lead <:+ '[' :: ']' :: lead := List.suffix_append ['[', ']'] lead
      refine ⟨'[' :: ']' :: pairs, tail, suffix.trans further, fun rest => ?_⟩
      simp only [List.cons_append, takePairs, Option.some.inj (read rest)]
  | case2 lead noPair =>
      refine ⟨[], lead, List.suffix_rfl, fun rest => congrArg some (takePairs.eq_2 _ ?_)⟩
      intro later shape
      rcases lead with _ | ⟨first, _ | ⟨second, lead⟩⟩
      · exact notOpening (List.cons.inj shape).1
      · exact notClosing (List.cons.inj (List.cons.inj shape).2).1
      · simp only [List.cons_append, List.cons.injEq] at shape
        exact noPair lead (by rw [shape.1, shape.2.1])

theorem takeDecoration_confined (stop : Char) (ends : endsGeneric stop = true) :
    Confined stop Prod.mk fun text => some (takeDecoration text) := by
  have handled := takeHandles_confined stop (kept_ne endsGeneric stop '@' ends rfl)
  have bracketPairs := takePairs_confined stop (kept_ne endsGeneric stop '[' ends rfl)
    (kept_ne endsGeneric stop ']' ends rfl)
  -- Without pairs the handles are those of the word, and no second run of them is read.
  have same : (fun text => some (takeDecoration text)) = fun text =>
      (some (takeHandles text)).bind fun element =>
        (some (takePairs element.2)).bind fun pairs =>
          if pairs.1 = [] then some (element.1, element.2)
          else (some (takeHandles pairs.2)).map fun handles =>
            (element.1 ++ pairs.1 ++ handles.1, handles.2) := by
    funext text
    simp only [takeDecoration, Option.bind_some, Option.map_some]
    cases shape : takePairs (takeHandles text).2 with
    | mk pairs rest =>
        cases pairs <;> rfl
  rw [same]
  refine handled.bind fun element => ?_
  intro lead
  rcases bracketPairs lead with refused | ⟨pairs, tail, suffix, read⟩
  · exact absurd (refused []) (by simp)
  · simp only [read, Option.bind_some]
    cases pairs with
    | nil => exact Or.inr ⟨element, lead, List.suffix_rfl, fun rest => rfl⟩
    | cons first pairs =>
        have goesOn : Confined stop Prod.mk fun text =>
            (some (takeHandles text)).map fun handles =>
              (element ++ first :: pairs ++ handles.1, handles.2) :=
          handled.map fun handles => ⟨_, fun text => rfl⟩
        rcases goesOn tail with refused | ⟨found, rest, further, accepted⟩
        · exact Or.inl refused
        · exact Or.inr ⟨found, rest, further.trans suffix, accepted⟩

theorem throughClosing_confined {α β : Type} {join : β → Text → α} {next : Text → Option α}
    (stop : Char) (ends : endsGeneric stop = true) (read : Confined stop join next) :
    Confined stop (paired join) (throughClosing next) := by
  intro lead
  induction lead with
  | nil => exact Or.inl fun rest => if_pos ends
  | cons first lead ih =>
      simp only [List.cons_append, throughClosing]
      cases endsHere : endsGeneric first with
      | true => exact Or.inl fun rest => if_pos rfl
      | false =>
          -- A `>` closes the type only if the rest is accepted; else a later one is tried.
          have goesOn : Confined stop join fun text => if first = '>' then next text else none := by
            split
            · exact read
            · exact Confined.refuse
          have further := List.suffix_cons first lead
          rcases goesOn lead with refused | ⟨found, tail, suffix, accepted⟩
          · simp only [refused, Bool.false_eq_true, if_false]
            rcases ih with refusedLater | ⟨found, tail, suffix, accepted⟩
            · exact Or.inl fun rest => by rw [refusedLater]; rfl
            · exact Or.inr ⟨(first :: found.1, found.2), tail, suffix.trans further, fun rest => by
                rw [accepted]; rfl⟩
          · simp only [accepted, Bool.false_eq_true, if_false]
            exact Or.inr ⟨([first], found), tail, suffix.trans further, fun rest => rfl⟩

theorem read?_confined {α β : Type} {join : β → Text → α} {next : Text → Option α}
    (stop : Char) (ends : endsGeneric stop = true) (read : Confined stop join next) :
    Confined stop (paired join) (read? next) := by
  have notWord := (endsGeneric_apart stop ends).1
  have notHandle := kept_ne endsGeneric stop '@' ends rfl
  have notAngle := kept_ne endsGeneric stop '<' ends rfl
  have spelled (word : Text) : Confined stop (paired join)
      fun text => (some (takeDecoration text)).bind fun split =>
        (next split.2).map fun found => (word ++ split.1, found) :=
    (takeDecoration_confined stop ends).bind fun decoration =>
      read.pair (word ++ decoration)
  have handled : Confined stop (paired join)
      fun text => (some (takeHandles text)).bind fun split =>
        (next split.2).map fun found => (split.1, found) :=
    (takeHandles_confined stop notHandle).bind fun handles => read.pair handles
  have bracketed (word : Text) : Confined stop (paired join) fun inside =>
      (throughClosing (fun text => (some (takeHandles text)).bind fun split =>
          (next split.2).map fun found => (split.1, found)) inside).map fun found =>
        (word ++ '<' :: (found.1 ++ found.2.1), found.2.2) :=
    (throughClosing_confined stop ends handled).map fun found =>
      ⟨(word ++ '<' :: (found.1 ++ found.2.1), found.2.2), fun text => rfl⟩
  have same : read? next = fun text => (Text.run? isWordChar text).bind fun split =>
      (if split.1 = arrayName then Text.after? ['<'] split.2 else none).elim
        ((some (takeDecoration split.2)).bind fun decorated =>
          (next decorated.2).map fun found => (split.1 ++ decorated.1, found))
        fun inside => (throughClosing (fun text => (some (takeHandles text)).bind fun marked =>
            (next marked.2).map fun found => (marked.1, found)) inside).map fun found =>
          (split.1 ++ '<' :: (found.1 ++ found.2.1), found.2.2) := by
    funext text
    rw [read?]
    cases Text.run? isWordChar text with
    | none => rfl
    | some split =>
        dsimp only [Option.bind_some]
        cases (if split.1 = arrayName then Text.after? ['<'] split.2 else none) <;> rfl
  rw [same]
  refine (Text.run?_confined isWordChar stop notWord).bind fun word => ?_
  have angle : Confined stop plainly fun text =>
      if word = arrayName then Text.after? ['<'] text else none := by
    split
    · exact Text.after?_confined ['<'] stop (List.mem_singleton.not.mpr notAngle)
    · exact Confined.refuse
  dsimp only
  exact angle.elim (spelled word) fun _ => bracketed word

theorem readConst?_confined {α β : Type} {join : β → Text → α} {next : Text → Option α}
    (stop : Char) (ends : endsGeneric stop = true) (separates : Char → Bool)
    (refused : separates stop = false) (read : Confined stop join next) :
    Confined stop (paired join) (readConst? separates next) := by
  have notConst : stop ∉ "const".toList := fun member =>
    kept_ne isWordChar stop stop (const_chars stop member) (endsGeneric_apart stop ends).1 rfl
  have type := read?_confined stop ends read
  have behind : Confined stop plainly fun text =>
      (Text.after? "const".toList text).bind (Text.afterSome? separates) :=
    (Text.after?_confined "const".toList stop notConst).bind fun _ =>
      Text.afterSome?_confined separates stop refused
  exact (behind.bind fun _ => type).or type

end TypeSpelling

namespace Declaration

open TypeSpelling

theorem scan_begins (text : Text) (before : Option Char) (begins : before.all mayFollow = true) :
    findFrom rule 0 before text = findAll rule text := by
  cases text with
  | nil => rfl
  | cons first rest => simp [findAll, findFrom, rule, begins]

section Name

variable (stop : Char) (notWord : isWordChar stop = false) (notBlank : isBlank stop = false)
variable (notReference : stop ≠ '&')
include notWord notBlank notReference

-- At the stop itself no reference begins, so an empty text is not `&` with something behind it.
theorem afterReference?_confined : Confined stop plainly afterReference? := by
  have mode : Confined stop plainly fun text => (Text.run? isWordChar (Text.trimStart text)).bind
      fun split => if split.1 ∈ ["in", "out", "inout"].map String.toList
        then some (Text.trimStart split.2) else none := by
    refine ((Text.trimStart_confined stop notBlank).bind fun _ =>
      Text.run?_confined isWordChar stop notWord).bind fun word => ?_
    dsimp only
    split
    · exact Text.trimStart_confined stop notBlank
    · exact Confined.refuse
  intro lead
  cases lead with
  | nil =>
      refine Or.inr ⟨(), [], List.suffix_rfl, fun rest => ?_⟩
      rw [List.nil_append, afterReference?.eq_2]
      · rfl
      · rintro behind ⟨⟩
        exact notReference rfl
  | cons first lead =>
      by_cases reference : first = '&'
      · subst reference
        rcases mode lead with refused | ⟨found, tail, suffix, accepted⟩
        · exact Or.inl refused
        · exact Or.inr ⟨found, tail, suffix.trans (List.suffix_cons '&' lead), accepted⟩
      · refine Or.inr ⟨(), first :: lead, List.suffix_rfl, fun rest => ?_⟩
        rw [List.cons_append, afterReference?.eq_2]
        · rfl
        · rintro behind ⟨⟩
          exact reference rfl

theorem name?_confined : Confined stop Prod.mk name? := by
  have ended (name : Text) : Confined stop Prod.mk fun text =>
      (Text.trimStart text).head?.bind fun c => if endsName c then some (name, text) else none := by
    intro lead
    have head (rest : Text) : (Text.trimStart (lead ++ stop :: rest)).head? =
        some ((Text.trimStart lead).headD stop) := by
      rw [Text.trimStart, Text.dropWhile_stop isBlank stop notBlank, ← Text.trimStart]
      cases Text.trimStart lead <;> rfl
    simp only [head, Option.bind_some]
    cases endsName ((Text.trimStart lead).headD stop) with
    | true => exact Or.inr ⟨name, lead, List.suffix_rfl, fun rest => rfl⟩
    | false => exact Or.inl fun rest => rfl
  have started : Confined stop plainly fun text =>
      (some (Text.trimStart text)).bind afterReference? :=
    (Text.trimStart_confined stop notBlank).bind fun _ =>
      afterReference?_confined stop notWord notBlank notReference
  have same : name? = fun text => ((some (Text.trimStart text)).bind afterReference?).bind
      fun start => (Text.run? isWordChar start).bind fun split =>
        (Text.trimStart split.2).head?.bind fun c => if endsName c then some split else none := rfl
  rw [same]
  exact started.bind fun _ => (Text.run?_confined isWordChar stop notWord).bind ended

end Name

variable (stop : Char) (ends : endsGeneric stop = true)
include ends

theorem rule_confined (before : Option Char) : Confined stop Prod.mk (rule before) := by
  obtain ⟨notWord, notBlank⟩ := endsGeneric_apart stop ends
  have name := name?_confined stop notWord notBlank (kept_ne endsGeneric stop '&' ends rfl)
  have read : Confined stop Prod.mk fun text => (readConst? isBlank name? text).map fun found =>
      ((⟨found.1, found.2.1⟩ : Declaration), found.2.2) :=
    (readConst?_confined stop ends isBlank notBlank name).map fun found =>
      ⟨⟨found.1, found.2⟩, fun text => rfl⟩
  by_cases begins : before.all mayFollow = true
  · have same : rule before = fun text => (readConst? isBlank name? text).map fun found =>
        ((⟨found.1, found.2.1⟩ : Declaration), found.2.2) := funext fun text => if_pos begins
    rw [same]
    exact read
  · have same : rule before = fun _ => none := funext fun text => if_neg begins
    rw [same]
    exact Confined.refuse

theorem rule_halts : HaltsAt rule stop where
  confined := rule_confined stop ends
  refuses before rest := rule_silent before stop rest (endsGeneric_apart stop ends).1

theorem scan_stop (lead rest : Text) (skip : Nat) (inside : skip ≤ lead.length)
    (before : Option Char) :
    findFrom rule skip before (lead ++ stop :: rest) =
      findFrom rule skip before (lead ++ [stop]) ++ findFrom rule 0 (some stop) rest :=
  ((rule_halts stop ends).settled lead).findFrom_stop rest skip (Nat.le_succ_of_le inside) before

end Declaration

end ScriptSense
