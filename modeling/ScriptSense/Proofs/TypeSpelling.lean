import ScriptSense.TypeSpelling
import ScriptSense.Proofs.Class

/-!
Reading a type undoes spelling it. A spelled type is a word with handles and `[]` pairs, or an
`array<...>` of a spelled type with handles. What follows must not go on with the type, and where
the reader tries a `>` inside of an array, the text behind it must be refused.
-/
namespace ScriptSense

structure Word where
  text : Text
  some_char : text ≠ [] := by decide
  chars : ∀ c ∈ text, isWordChar c = true := by decide

theorem Word.head (word : Word) :
    ∃ first rest, word.text = first :: rest ∧ isWordChar first = true := by
  obtain ⟨first, rest, shape⟩ := List.exists_cons_of_ne_nil word.some_char
  exact ⟨first, rest, shape, word.chars first (by simp [shape])⟩

theorem Word.stops (word : Word) (keep : Char → Bool)
    (apart : ∀ c, isWordChar c = true → keep c = false) (rest : Text) :
    Stops keep (word.text ++ rest) := by
  obtain ⟨first, later, shape, char⟩ := word.head
  rw [shape, List.cons_append, stops_cons]
  exact apart first char

/-- A type as a script spells it. Handles of an element stand in front of its `[]` pairs. -/
inductive TypeForm where
  | word (name : Word) (elementHandles pairs handles : Nat)
  | array (element : TypeForm) (handles : Nat)

namespace TypeForm

def handleMarks (count : Nat) : Text := List.replicate count '@'

def pairMarks : Nat → Text
  | 0 => []
  | count + 1 => '[' :: ']' :: pairMarks count

def decoration (elementHandles pairs handles : Nat) : Text :=
  handleMarks elementHandles ++ (pairMarks pairs ++ handleMarks handles)

def text : TypeForm → Text
  | word name elementHandles pairs handles =>
      name.text ++ decoration elementHandles pairs handles
  | array element handles => arrayName ++ '<' :: (element.text ++ '>' :: handleMarks handles)

def isBare : TypeForm → Bool
  | word _ 0 0 0 => true
  | _ => false

end TypeForm

structure FollowsType (form : TypeForm) (rest : Text) : Prop where
  mark : ∀ c, rest.head? = some c → c ≠ '@' ∧ c ≠ '[' ∧ c ≠ '<'
  word : form.isBare = true → Stops isWordChar rest

namespace TypeSpelling

open TypeForm

theorem takeHandles_marks (count : Nat) (rest : Text)
    (other : ∀ c, rest.head? = some c → c ≠ '@') :
    takeHandles (handleMarks count ++ rest) = (handleMarks count, rest) := by
  apply Text.span_run
  · intro c member
    rw [List.eq_of_mem_replicate member]
    rfl
  · intro c head
    simpa using other c head

theorem takePairs_marks (count : Nat) (rest : Text)
    (other : ∀ c, rest.head? = some c → c ≠ '[') :
    takePairs (pairMarks count ++ rest) = (pairMarks count, rest) := by
  induction count with
  | zero =>
      have noPair : ∀ later, rest = '[' :: ']' :: later → False := by
        rintro later rfl
        exact other '[' rfl rfl
      exact takePairs.eq_2 rest noPair
  | succ count ih => simp [pairMarks, takePairs, ih]

theorem handleMarks_head (handles : Nat) (rest : Text)
    (other : ∀ c, rest.head? = some c → c ≠ '[') :
    ∀ c, (handleMarks handles ++ rest).head? = some c → c ≠ '[' := by
  cases handles with
  | zero => simpa [handleMarks] using other
  | succ handles =>
      intro c head
      simp only [handleMarks, List.replicate_succ, List.cons_append, List.head?_cons,
        Option.some.injEq] at head
      subst head
      decide

theorem takeDecoration_marks (elementHandles pairs handles : Nat) (rest : Text)
    (noHandle : ∀ c, rest.head? = some c → c ≠ '@')
    (noPair : ∀ c, rest.head? = some c → c ≠ '[') :
    takeDecoration (decoration elementHandles pairs handles ++ rest) =
      (decoration elementHandles pairs handles, rest) := by
  cases pairs with
  | zero =>
      have joined : decoration elementHandles 0 handles = handleMarks (elementHandles + handles) := by
        simp [decoration, pairMarks, handleMarks]
      have stop := takePairs_marks 0 rest noPair
      simp only [pairMarks, List.nil_append] at stop
      rw [joined, takeDecoration, takeHandles_marks _ rest noHandle]
      dsimp only
      rw [stop]
  | succ pairs =>
      have first : takeHandles (decoration elementHandles (pairs + 1) handles ++ rest) =
          (handleMarks elementHandles, pairMarks (pairs + 1) ++ (handleMarks handles ++ rest)) := by
        simp only [decoration, List.append_assoc]
        exact takeHandles_marks _ _ (by simp [pairMarks])
      have middle := takePairs_marks (pairs + 1) (handleMarks handles ++ rest)
        (handleMarks_head handles rest noPair)
      rw [takeDecoration, first]
      dsimp only
      rw [middle]
      simp only [pairMarks]
      rw [takeHandles_marks handles rest noHandle]
      simp [decoration, pairMarks]

theorem decoration_shape (name : Word) (elementHandles pairs handles : Nat) :
    ((word name elementHandles pairs handles).isBare = true ∧
        decoration elementHandles pairs handles = []) ∨
      ∃ mark later, decoration elementHandles pairs handles = mark :: later ∧
        (mark = '@' ∨ mark = '[') := by
  cases elementHandles with
  | succ elementHandles =>
      exact Or.inr ⟨'@', _, by simp [decoration, handleMarks, List.replicate_succ]; rfl, Or.inl rfl⟩
  | zero =>
      cases pairs with
      | succ pairs => exact Or.inr ⟨'[', _, rfl, Or.inr rfl⟩
      | zero =>
          cases handles with
          | succ handles => exact Or.inr ⟨'@', _, rfl, Or.inl rfl⟩
          | zero => exact Or.inl ⟨rfl, rfl⟩

theorem read?_word {α : Type} (next : Text → Option α) (name : Word)
    (elementHandles pairs handles : Nat) (rest : Text)
    (follows : FollowsType (word name elementHandles pairs handles) rest) :
    read? next (name.text ++ (decoration elementHandles pairs handles ++ rest)) =
      (next rest).map fun found => (name.text ++ decoration elementHandles pairs handles, found) := by
  let behind := decoration elementHandles pairs handles ++ rest
  have ends : Stops isWordChar behind ∧ ∀ c, behind.head? = some c → c ≠ '<' := by
    rcases decoration_shape name elementHandles pairs handles with ⟨bare, empty⟩ | decorated
    · simp only [behind, empty, List.nil_append]
      exact ⟨follows.word bare, fun c head => (follows.mark c head).2.2⟩
    · obtain ⟨mark, later, shape, rfl | rfl⟩ := decorated
      · simp only [behind, shape]
        exact ⟨(stops_cons _ _ _).mpr rfl, by simp⟩
      · simp only [behind, shape]
        exact ⟨(stops_cons _ _ _).mpr rfl, by simp⟩
  have notArray : (if name.text = arrayName then Text.after? ['<'] behind else none) = none := by
    split
    · cases shape : behind with
      | nil => rfl
      | cons first later =>
          have other : '<' ≠ first := fun same => ends.2 first (by rw [shape]; rfl) same.symm
          simp [Text.after?, other]
    · rfl
  have decorated := takeDecoration_marks elementHandles pairs handles rest
    (fun c head => (follows.mark c head).1) (fun c head => (follows.mark c head).2.1)
  rw [read?, Text.run?_run isWordChar name.text behind name.some_char name.chars ends.1]
  dsimp only
  rw [notArray]
  simp only [behind, decorated]

def ClosesAtEnd : Text → Prop
  | [] => True
  | first :: rest => (first = '>' → ∀ c ∈ rest, c = '@' ∨ c = '>') ∧ ClosesAtEnd rest

theorem closesAtEnd_of_marks (text : Text) (marks : ∀ c ∈ text, c = '@' ∨ c = '>') :
    ClosesAtEnd text := by
  induction text with
  | nil => trivial
  | cons first rest ih =>
      have later := fun c member => marks c (List.mem_cons_of_mem first member)
      exact ⟨fun _ => later, ih later⟩

theorem closesAtEnd_append (text marks : Text) (closes : ClosesAtEnd text)
    (only : ∀ c ∈ marks, c = '@' ∨ c = '>') : ClosesAtEnd (text ++ marks) := by
  induction text with
  | nil => exact closesAtEnd_of_marks marks only
  | cons first rest ih =>
      refine ⟨fun closing c member => ?_, ih closes.2⟩
      rcases List.mem_append.mp member with inText | inMarks
      · exact closes.1 closing c inText
      · exact only c inMarks

theorem closesAtEnd_lead (lead text : Text) (apart : ∀ c ∈ lead, c ≠ '>')
    (closes : ClosesAtEnd text) : ClosesAtEnd (lead ++ text) := by
  induction lead with
  | nil => exact closes
  | cons first lead ih =>
      have other := apart first List.mem_cons_self
      exact ⟨fun closing => absurd closing other,
        ih fun c member => apart c (List.mem_cons_of_mem first member)⟩

theorem closesAtEnd_split (lead behind : Text) (closes : ClosesAtEnd (lead ++ '>' :: behind)) :
    ∀ c ∈ behind, c = '@' ∨ c = '>' := by
  induction lead with
  | nil => exact closes.1 rfl
  | cons first lead ih => exact ih closes.2

/-- The reader takes the first `>` behind which the rest is accepted. -/
theorem throughClosing_first {α : Type} (next : Text → Option α) (inside rest : Text) (found : α)
    (free : ∀ c ∈ inside, endsGeneric c = false)
    (refused : ∀ lead behind, inside = lead ++ '>' :: behind → next (behind ++ '>' :: rest) = none)
    (accepted : next rest = some found) :
    throughClosing next (inside ++ '>' :: rest) = some (inside ++ ['>'], found) := by
  induction inside with
  | nil => simp [throughClosing, accepted, show endsGeneric '>' = false from rfl]
  | cons first inside ih =>
      have later := ih (fun c member => free c (List.mem_cons_of_mem first member))
        fun lead behind split => refused (first :: lead) behind (by rw [split, List.cons_append])
      have goes := free first List.mem_cons_self
      by_cases closing : first = '>'
      · have early := refused [] inside (by rw [closing, List.nil_append])
        simp [throughClosing, goes, early, later]
      · simp [throughClosing, goes, closing, later]

theorem takeHandles_stop (stop : Char) (notHandle : stop ≠ '@') (lead rest : Text) :
    (takeHandles (lead ++ stop :: rest)).2 = (takeHandles lead).2 ++ stop :: rest := by
  rw [takeHandles, takeHandles, Text.span_stop _ stop (by simpa using notHandle),
    List.span_eq_takeWhile_dropWhile]

theorem array_word : ∀ c ∈ arrayName, isWordChar c = true := by decide

/-- An array is read through its last `>` if nothing is read behind the ones inside. -/
theorem read?_inside {α : Type} (next : Text → Option α) (inside : Text) (handles : Nat)
    (rest : Text) (found : α) (free : ∀ c ∈ inside, endsGeneric c = false)
    (noHandle : ∀ c, rest.head? = some c → c ≠ '@')
    (refused : ∀ lead behind, inside = lead ++ '>' :: behind →
      ∀ later, next ((takeHandles behind).2 ++ '>' :: later) = none)
    (accepted : next rest = some found) :
    read? next (arrayName ++ '<' :: (inside ++ '>' :: (handleMarks handles ++ rest))) =
      some (arrayName ++ '<' :: (inside ++ '>' :: handleMarks handles), found) := by
  let closing (rest : Text) : Option (Text × α) :=
    (next (takeHandles rest).2).map fun found => ((takeHandles rest).1, found)
  have handled := takeHandles_marks handles rest noHandle
  have closed : closing (handleMarks handles ++ rest) = some (handleMarks handles, found) := by
    simp [closing, handled, accepted]
  have early : ∀ lead behind, inside = lead ++ '>' :: behind →
      closing (behind ++ '>' :: (handleMarks handles ++ rest)) = none := by
    intro lead behind split
    have unread := refused lead behind split (handleMarks handles ++ rest)
    rw [← takeHandles_stop '>' (by decide)] at unread
    simp only [closing, unread, Option.map_none]
  have word := Text.run?_run isWordChar arrayName
    ('<' :: (inside ++ '>' :: (handleMarks handles ++ rest))) (by decide) array_word
    ((stops_cons _ _ _).mpr rfl)
  have through := throughClosing_first closing inside (handleMarks handles ++ rest) _ free early closed
  rw [read?, word]
  dsimp only
  rw [if_pos rfl]
  simp only [Text.after?, if_true]
  change (throughClosing closing _).map _ = _
  rw [through]
  simp

end TypeSpelling

namespace TypeForm

open TypeSpelling

theorem pairMarks_chars (pairs : Nat) (c : Char) (member : c ∈ pairMarks pairs) :
    c = '[' ∨ c = ']' := by
  induction pairs with
  | zero => simp [pairMarks] at member
  | succ pairs ih =>
      rcases List.mem_cons.mp member with rfl | later
      · exact Or.inl rfl
      · rcases List.mem_cons.mp later with rfl | later
        · exact Or.inr rfl
        · exact ih later

theorem decoration_chars (elementHandles pairs handles : Nat) (c : Char)
    (member : c ∈ decoration elementHandles pairs handles) : c = '@' ∨ c = '[' ∨ c = ']' := by
  simp only [decoration, List.mem_append] at member
  rcases member with inElement | inPairs | inHandles
  · exact Or.inl (List.eq_of_mem_replicate inElement)
  · exact Or.inr (pairMarks_chars pairs c inPairs)
  · exact Or.inl (List.eq_of_mem_replicate inHandles)

theorem text_chars (form : TypeForm) (c : Char) (member : c ∈ form.text) :
    isWordChar c = true ∨ c ∈ ['@', '[', ']', '<', '>'] := by
  induction form with
  | word name elementHandles pairs handles =>
      rcases List.mem_append.mp member with inName | inMarks
      · exact Or.inl (name.chars c inName)
      · rcases decoration_chars elementHandles pairs handles c inMarks with rfl | rfl | rfl <;> simp
  | array element handles ih =>
      simp only [text, List.mem_append, List.mem_cons] at member
      rcases member with inName | rfl | inElement | rfl | inMarks
      · exact Or.inl (array_word c inName)
      · simp
      · exact ih inElement
      · simp
      · simp [List.eq_of_mem_replicate inMarks]

theorem text_closes (form : TypeForm) : ClosesAtEnd form.text := by
  induction form with
  | word name elementHandles pairs handles =>
      have noClosing : ∀ c ∈ (word name elementHandles pairs handles).text, c ≠ '>' := by
        intro c member
        rcases List.mem_append.mp member with inName | inMarks
        · exact kept_ne isWordChar c '>' (name.chars c inName) rfl
        · rcases decoration_chars elementHandles pairs handles c inMarks with rfl | rfl | rfl <;>
            decide
      have closes := closesAtEnd_lead _ [] noClosing trivial
      rwa [List.append_nil] at closes
  | array element handles ih =>
      have marks : ∀ c ∈ '>' :: handleMarks handles, c = '@' ∨ c = '>' := by
        intro c member
        rcases List.mem_cons.mp member with rfl | inMarks
        · exact Or.inr rfl
        · exact Or.inl (List.eq_of_mem_replicate inMarks)
      have inner := closesAtEnd_append element.text _ ih marks
      exact closesAtEnd_lead arrayName _ (by decide) (closesAtEnd_lead ['<'] _ (by decide) inner)

theorem text_head (form : TypeForm) :
    ∃ first rest, form.text = first :: rest ∧ isWordChar first = true := by
  cases form with
  | word name elementHandles pairs handles =>
      obtain ⟨first, rest, shape, char⟩ := name.head
      exact ⟨first, rest ++ decoration elementHandles pairs handles, by simp [text, shape], char⟩
  | array element handles => exact ⟨'a', _, rfl, by decide⟩

theorem text_not_blank (form : TypeForm) (c : Char) (member : c ∈ form.text) :
    isBlank c = false := by
  rcases form.text_chars c member with word | mark
  · exact word_not_blank c word
  · exact (by decide : ∀ c ∈ ['@', '[', ']', '<', '>'], isBlank c = false) c mark

theorem stops_blank (form : TypeForm) (rest : Text) : Stops isBlank (form.text ++ rest) := by
  obtain ⟨first, later, shape, char⟩ := form.text_head
  rw [shape, List.cons_append, stops_cons]
  exact word_not_blank first char

theorem isBare_of_word (form : TypeForm) (word : ∀ c ∈ form.text, isWordChar c = true) :
    form.isBare = true := by
  cases form with
  | word name elementHandles pairs handles =>
      rcases decoration_shape name elementHandles pairs handles with ⟨bare, _⟩ | decorated
      · exact bare
      · obtain ⟨mark, later, shape, isMark⟩ := decorated
        have char := word mark (by simp [text, shape])
        rcases isMark with rfl | rfl <;> exact absurd char (by decide)
  | array element handles => exact absurd (word '<' (by simp [text])) (by decide)

end TypeForm

namespace TypeSpelling

open TypeForm

theorem takeHandles_closing (marks : Text) (only : ∀ c ∈ marks, c = '@' ∨ c = '>')
    (later : Text) : ∃ rest, (takeHandles marks).2 ++ '>' :: later = '>' :: rest := by
  rw [takeHandles, List.span_eq_takeWhile_dropWhile]
  induction marks with
  | nil => exact ⟨later, rfl⟩
  | cons first marks ih =>
      rcases only first List.mem_cons_self with rfl | rfl
      · exact ih fun c member => only c (List.mem_cons_of_mem _ member)
      · exact ⟨marks ++ '>' :: later, rfl⟩

theorem endsGeneric_cases (stop : Char) (ends : endsGeneric stop = true) :
    stop ∈ [';', '=', '(', ')', '{', '}'] := by
  simpa [endsGeneric, or_assoc] using ends

theorem endsGeneric_apart (stop : Char) (ends : endsGeneric stop = true) :
    isWordChar stop = false ∧ isBlank stop = false :=
  (by decide : ∀ c ∈ [';', '=', '(', ')', '{', '}'], isWordChar c = false ∧ isBlank c = false) stop
    (endsGeneric_cases stop ends)

theorem blank_generic (c : Char) (blank : isBlank c = true) : endsGeneric c = false := by
  cases ends : endsGeneric c with
  | false => rfl
  | true =>
      rw [(endsGeneric_apart c ends).2] at blank
      cases blank

theorem generic_char (c : Char) (char : isWordChar c = true ∨ c ∈ ['@', '[', ']', '<', '>']) :
    endsGeneric c = false := by
  rcases char with word | mark
  · cases ends : endsGeneric c with
    | false => rfl
    | true =>
        rw [(endsGeneric_apart c ends).1] at word
        contradiction
  · exact (by decide : ∀ c ∈ ['@', '[', ']', '<', '>'], endsGeneric c = false) c mark

/-- The reader takes a spelled type as a whole, whatever the text behind it is read as. -/
theorem read?_form {α : Type} (next : Text → Option α) (form : TypeForm) (rest : Text) (found : α)
    (follows : FollowsType form rest) (refused : ∀ later, next ('>' :: later) = none)
    (accepted : next rest = some found) :
    read? next (form.text ++ rest) = some (form.text, found) := by
  cases form with
  | word name elementHandles pairs handles =>
      rw [text, List.append_assoc, read?_word next name elementHandles pairs handles rest follows,
        accepted, Option.map_some]
  | array element handles =>
      have free : ∀ c ∈ element.text, endsGeneric c = false := fun c member =>
        generic_char c (element.text_chars c member)
      -- The closings of inner arrays are tried first; behind each of them another `>` is left.
      have early : ∀ lead behind, element.text = lead ++ '>' :: behind →
          ∀ later, next ((takeHandles behind).2 ++ '>' :: later) = none := by
        intro lead behind split later
        have marks := closesAtEnd_split lead behind (split ▸ element.text_closes)
        obtain ⟨rest, shape⟩ := takeHandles_closing behind marks later
        rw [shape, refused]
      have read := read?_inside next element.text handles rest found free
        (fun c head => (follows.mark c head).1) early accepted
      simpa [text] using read

theorem const_chars : ∀ c ∈ "const".toList, isWordChar c = true := by decide

theorem no_const (form : TypeForm) (rest : Text) (follows : FollowsType form rest)
    (proper : form.text ≠ "const".toList) :
    (Text.after? "const".toList (form.text ++ rest)).bind (Text.afterSome? isBlank) = none := by
  cases read : Text.after? "const".toList (form.text ++ rest) with
  | none => rfl
  | some behind =>
      have split := Text.after?_some _ _ behind read
      rcases List.append_eq_append_iff.mp split with ⟨more, const, joined⟩ | ⟨more, spelled, joined⟩
      · cases more with
        | nil => simp [const] at proper
        | cons first more =>
            have bare : form.isBare = true :=
              form.isBare_of_word fun c member => const_chars c (by rw [const]; simp [member])
            have stop := follows.word bare
            rw [joined, List.cons_append, stops_cons] at stop
            rw [const_chars first (by rw [const]; simp)] at stop
            contradiction
      · cases more with
        | nil => simp [spelled] at proper
        | cons first more =>
            have member : first ∈ form.text := by simp [spelled]
            have notBlank : isBlank first = false := form.text_not_blank first member
            simp [joined, Text.afterSome?, notBlank]

theorem readConst?_silent {α : Type} (separates : Char → Bool) (next : Text → Option α)
    (first : Char) (rest : Text) (silent : isWordChar first = false) :
    readConst? separates next (first :: rest) = none := by
  have noWord : Text.run? isWordChar (first :: rest) = none :=
    Text.run?_stops isWordChar _ ((stops_cons _ _ _).mpr silent)
  have noConst : Text.after? "const".toList (first :: rest) = none := by
    have other : 'c' ≠ first := kept_ne isWordChar 'c' first rfl silent
    exact if_neg other
  rw [readConst?, noConst, read?, noWord]
  rfl

theorem readConst?_plain {α : Type} (next : Text → Option α) (text : Text) (found : Text × α)
    (noConst : (Text.after? "const".toList text).bind (Text.afterSome? isBlank) = none)
    (read : read? next text = some found) : readConst? isBlank next text = some found := by
  rw [readConst?, noConst]
  exact read

theorem readConst?_const {α : Type} (next : Text → Option α) (gap : Gap) (some_blank : gap.text ≠ [])
    (text : Text) (found : Text × α) (stop : Stops isBlank text)
    (read : read? next text = some found) :
    readConst? isBlank next ("const".toList ++ (gap.text ++ text)) = some found := by
  have behind : Text.afterSome? isBlank (gap.text ++ text) = some text := by
    obtain ⟨first, blanks, shape⟩ := List.exists_cons_of_ne_nil some_blank
    have blank := gap.blank
    rw [shape] at blank
    rw [shape, List.cons_append, Text.afterSome?, if_pos (blank first List.mem_cons_self),
      Text.dropWhile_run isBlank blanks _ (fun c member => blank c (List.mem_cons_of_mem _ member))
        stop]
  rw [readConst?, Text.after?_append]
  simp [behind, read]

end TypeSpelling

end ScriptSense
