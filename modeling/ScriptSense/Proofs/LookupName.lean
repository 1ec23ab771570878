import Mathlib.Data.List.Induction
import ScriptSense.Proofs.Class
import ScriptSense.TypeSpelling

/-!
What does not change the name that a type is looked up under. Handles and blanks behind a spelling are
taken off before anything is decided, so they never count; a `[]` pair behind an element makes an array
of it, whatever stands around the pair; and a name that was found is its own spelling.
-/
namespace ScriptSense

theorem blank_handleOrBlank (c : Char) (blank : isBlank c = true) : isHandleOrBlank c = true := by
  rw [isHandleOrBlank, blank, Bool.or_true]

namespace Text

theorem dropEndWhile_absorbed (drop : Char → Bool) (text run : Text)
    (dropped : ∀ c ∈ run, drop c = true) : dropEndWhile drop (text ++ run) = dropEndWhile drop text := by
  have reversed : ∀ c ∈ run.reverse, drop c = true := fun c member =>
    dropped c (List.mem_reverse.mp member)
  rw [dropEndWhile, dropEndWhile, List.reverse_append, List.dropWhile_append_of_pos reversed]

end Text

theorem bareSpelling_start (spelling : Text) :
    bareSpelling spelling = Text.dropEndWhile isHandleOrBlank (Text.trimStart spelling) := by
  have split := Text.dropEndWhile_append isBlank (Text.trimStart spelling)
  have behind : ∀ c ∈ Text.takeEndWhile isBlank (Text.trimStart spelling), isHandleOrBlank c = true := by
    intro c member
    exact blank_handleOrBlank c (List.mem_takeWhile_imp (List.mem_reverse.mp member))
  conv_rhs => rw [← split]
  exact (Text.dropEndWhile_absorbed isHandleOrBlank _ _ behind).symm

/-- Handles and blanks behind a spelling are taken off with those that it ends in. -/
theorem bareSpelling_append (spelling loose : Text) (marks : ∀ c ∈ loose, isHandleOrBlank c = true) :
    bareSpelling (spelling ++ loose) = bareSpelling spelling := by
  rw [bareSpelling_start, bareSpelling_start, Text.trimStart, Text.trimStart, List.dropWhile_append]
  split
  · next empty =>
      have left : ∀ c ∈ loose.dropWhile isBlank, isHandleOrBlank c = true := fun c member =>
        marks c ((List.dropWhile_suffix isBlank).mem member)
      rw [List.isEmpty_iff.mp empty]
      exact Text.dropEndWhile_absorbed isHandleOrBlank [] _ left
  · exact Text.dropEndWhile_absorbed isHandleOrBlank _ loose marks

theorem bareSpelling_bare (spelling : Text) :
    bareSpelling (bareSpelling spelling) = bareSpelling spelling := by
  have started : Text.trimStart (bareSpelling spelling) = bareSpelling spelling := by
    cases shape : bareSpelling spelling with
    | nil => rfl
    | cons first rest =>
        have split := Text.dropEndWhile_append isHandleOrBlank (Text.trimStart spelling)
        rw [← bareSpelling_start, shape, List.cons_append] at split
        have stop := Text.stops_dropWhile isBlank spelling
        rw [← Text.trimStart, ← split, stops_cons] at stop
        exact List.dropWhile_cons_of_neg (by simp [stop])
  have ended : Text.dropEndWhile isHandleOrBlank (bareSpelling spelling) = bareSpelling spelling := by
    have stop := Text.stops_dropWhile isHandleOrBlank (Text.trim spelling).reverse
    rw [bareSpelling, Text.dropEndWhile, Text.dropEndWhile, List.reverse_reverse]
    exact congrArg List.reverse (Text.dropWhile_run isHandleOrBlank [] _ (List.forall_mem_nil _) stop)
  rw [bareSpelling_start (bareSpelling spelling), started, ended]

theorem lookupName_bare (spelling other : Text) (same : bareSpelling spelling = bareSpelling other) :
    lookupName spelling = lookupName other := by
  rw [lookupName, lookupName, same]

/-- A name is looked up under itself. -/
theorem lookupName_again (spelling : Text) : lookupName (lookupName spelling) = lookupName spelling := by
  by_cases array : (isGenericArray (bareSpelling spelling) || isBracketedArray (bareSpelling spelling)) = true
  · have name : lookupName spelling = arrayName := by simp [lookupName, array]
    rw [name]
    decide
  · have name : lookupName spelling = bareSpelling spelling := by simp [lookupName, array]
    rw [name]
    exact (lookupName_bare _ _ (bareSpelling_bare spelling)).trans name

def NamesElement (c : Char) : Prop := isBlank c = false ∧ c ≠ '@' ∧ c ≠ '[' ∧ c ≠ ']'

theorem mem_dropPairs (c : Char) (names : NamesElement c) (reversed : Text) (member : c ∈ reversed) :
    c ∈ dropPairs reversed := by
  obtain ⟨_, _, notOpening, notClosing⟩ := names
  fun_induction dropPairs reversed with
  | case1 rest ih => exact ih (by simpa [notOpening, notClosing] using member)
  | case2 => exact member

theorem isBracketedArray_pair (element : Text) (named : ∃ c ∈ element, NamesElement c) :
    isBracketedArray (element ++ "[]".toList) = true := by
  obtain ⟨c, member, names⟩ := named
  have inside := mem_dropPairs c names element.reverse (List.mem_reverse.mpr member)
  have reversed : (element ++ "[]".toList).reverse = ']' :: '[' :: element.reverse :=
    List.reverse_append
  rw [isBracketedArray, reversed]
  simp only [Bool.not_eq_true', List.all_eq_false]
  exact ⟨c, inside, by simpa using names.2.1⟩

/-- A pair behind a named element makes an array of it. -/
theorem lookupName_pair (element : Text) (named : ∃ c ∈ element, NamesElement c) :
    lookupName (element ++ "[]".toList) = arrayName := by
  obtain ⟨c, member, names⟩ := named
  have inside : c ∈ Text.trimStart element := Text.mem_dropWhile isBlank c names.1 element member
  have bare : bareSpelling (element ++ "[]".toList) = Text.trimStart element ++ "[]".toList := by
    have some_char : (element.dropWhile isBlank).isEmpty = false :=
      List.isEmpty_eq_false_iff_exists_mem.mpr ⟨c, inside⟩
    have stop : Stops isHandleOrBlank (Text.trimStart element ++ "[]".toList).reverse :=
      (stops_reverse _ _ _ (by decide)).mpr ((stops_cons _ ']' ['[']).mpr (by decide))
    have whole := Text.dropEndWhile_run isHandleOrBlank _ [] (List.forall_mem_nil _) stop
    rw [List.append_nil] at whole
    rw [bareSpelling_start, Text.trimStart, List.dropWhile_append, some_char]
    exact whole
  rw [lookupName, bare, isBracketedArray_pair _ ⟨c, inside, names⟩, Bool.or_true]
  rfl

inductive TypeMark where
  | pair
  | loose (c : Char) (apart : isHandleOrBlank c = true)

namespace TypeMark

def text : TypeMark → Text
  | pair => "[]".toList
  | loose c _ => [c]

/-- Marks behind a named element: with a pair among them they make an array of it. -/
theorem lookupName_marks (element : Text) (named : ∃ c ∈ element, NamesElement c)
    (marks : List TypeMark) :
    (pair ∈ marks → lookupName (element ++ marks.flatMap text) = arrayName) ∧
      (pair ∉ marks → lookupName (element ++ marks.flatMap text) = lookupName element) := by
  induction marks using List.reverseRecOn with
  | nil => simp
  | append_singleton marks last ih =>
      rw [List.flatMap_append, List.flatMap_singleton, ← List.append_assoc]
      cases last with
      | pair =>
          obtain ⟨c, member, names⟩ := named
          have array := lookupName_pair (element ++ marks.flatMap text)
            ⟨c, List.mem_append_left _ member, names⟩
          exact ⟨fun _ => array, fun absent => absurd (by simp) absent⟩
      | loose c apart =>
          have bare := bareSpelling_append (element ++ marks.flatMap text) [c] (by simpa using apart)
          rw [text, lookupName_bare _ _ bare]
          simpa using ih

end TypeMark

/-- The name that a type is looked up under does not depend on its decoration. Looking a name up again
changes nothing; handles and blanks behind the spelling do not count; and behind an element that has a
name, `[]` pairs in any company of handles and blanks lead to the one name of arrays. -/
theorem lookupName_decorated (spelling : Text) :
    lookupName (lookupName spelling) = lookupName spelling ∧
      (∀ loose, (∀ c ∈ loose, isHandleOrBlank c = true) →
        lookupName (spelling ++ loose) = lookupName spelling) ∧
      ((∃ c ∈ spelling, NamesElement c) →
        (∀ loose, (∀ c ∈ loose, isHandleOrBlank c = true) →
          lookupName (spelling ++ ("[]".toList ++ loose)) = arrayName) ∧
        ∀ marks : List TypeMark, .pair ∈ marks →
          lookupName (spelling ++ marks.flatMap TypeMark.text) = arrayName) := by
  have absorbed (spelling loose : Text) (marks : ∀ c ∈ loose, isHandleOrBlank c = true) :
      lookupName (spelling ++ loose) = lookupName spelling :=
    lookupName_bare _ _ (bareSpelling_append spelling loose marks)
  refine ⟨lookupName_again spelling, absorbed spelling, fun named => ⟨fun loose marks => ?_, ?_⟩⟩
  · rw [← List.append_assoc, absorbed _ loose marks, lookupName_pair spelling named]
  · exact fun marks => (TypeMark.lookupName_marks spelling named marks).1

-- The element is a generic array itself, and blanks stand around the pairs and the handles.
theorem lookupName_decorated_nested :
    let spelling : Text := " array<CBlob@> ".toList
    let marks : List TypeMark :=
      [.loose '@' rfl, .pair, .loose ' ' rfl, .pair, .loose '@' rfl, .loose '\t' rfl]
    (∃ c ∈ spelling, NamesElement c) ∧ TypeMark.pair ∈ marks ∧
      spelling ++ marks.flatMap TypeMark.text = " array<CBlob@> @[] []@\t".toList ∧
      lookupName (spelling ++ marks.flatMap TypeMark.text) = "array".toList := by
  intro spelling marks
  have named : ∃ c ∈ spelling, NamesElement c := ⟨'C', by decide, by decide, by decide⟩
  obtain ⟨_, _, arrays⟩ := lookupName_decorated spelling
  exact ⟨named, by simp [marks], by decide, (arrays named).2 marks (by simp [marks])⟩

end ScriptSense
