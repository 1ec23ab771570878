import ScriptSense.Proofs.Declaration

/-!
What the search finds stands in the text: a type, the name behind it with its reference mark, and a
character that ends the name. Each reader gives back what it took and what it left, so what is found
stands in the order in which it is found.
-/
namespace ScriptSense

theorem Text.run?_some (keep : Char → Bool) (text run rest : Text)
    (read : run? keep text = some (run, rest)) :
    text = run ++ rest ∧ run ≠ [] ∧ (∀ c ∈ run, keep c = true) ∧ Stops keep rest := by
  rw [run?, List.span_eq_takeWhile_dropWhile] at read
  split at read
  · cases read
  · next some_char =>
      obtain ⟨rfl, rfl⟩ := Prod.mk.inj (Option.some.inj read)
      refine ⟨List.takeWhile_append_dropWhile.symm, ?_, fun c member => List.mem_takeWhile_imp member,
        stops_dropWhile keep text⟩
      intro empty
      exact some_char _ (by rw [empty])

namespace TypeSpelling

def EndsInMark (text : Text) : Prop := ∃ front last, text = front ++ [last] ∧ last ∈ ['@', ']', '>']

theorem mark_not_word (mark : Char) (listed : mark ∈ ['@', ']', '>']) : isWordChar mark = false :=
  (by decide : ∀ c ∈ ['@', ']', '>'], isWordChar c = false) mark listed

theorem EndsInMark.behind {text : Text} (ends : EndsInMark text) (lead : Text) :
    EndsInMark (lead ++ text) := by
  obtain ⟨front, last, rfl, mark⟩ := ends
  exact ⟨lead ++ front, last, (List.append_assoc _ _ _).symm, mark⟩

theorem handles_end (handles : Text) (only : ∀ c ∈ handles, c = '@') :
    handles = [] ∨ EndsInMark handles := by
  cases handles using List.reverseRec with
  | nil => exact Or.inl rfl
  | append_singleton front last =>
      exact Or.inr ⟨front, last, rfl, by rw [only last (by simp)]; decide⟩

theorem EndsInMark.append {text : Text} (ends : EndsInMark text) (handles : Text)
    (only : ∀ c ∈ handles, c = '@') : EndsInMark (text ++ handles) := by
  rcases handles_end handles only with rfl | endsHandles
  · rwa [List.append_nil]
  · exact endsHandles.behind text

theorem takeHandles_sound (text : Text) :
    text = (takeHandles text).1 ++ (takeHandles text).2 ∧ ∀ c ∈ (takeHandles text).1, c = '@' := by
  rw [takeHandles, List.span_eq_takeWhile_dropWhile]
  refine ⟨List.takeWhile_append_dropWhile.symm, fun c member => ?_⟩
  simpa using List.mem_takeWhile_imp member

theorem takePairs_sound (text : Text) :
    text = (takePairs text).1 ++ (takePairs text).2 ∧
      ((takePairs text).1 = [] ∨ EndsInMark (takePairs text).1) := by
  induction text using takePairs.induct with
  | case1 rest ih =>
      rw [takePairs]
      refine ⟨congrArg ('[' :: ']' :: ·) ih.1, Or.inr ?_⟩
      rcases ih.2 with empty | ends
      · exact ⟨['['], ']', by rw [empty]; rfl, by decide⟩
      · exact ends.behind ['[', ']']
  | case2 text noPair =>
      rw [takePairs.eq_2 text noPair]
      exact ⟨rfl, Or.inl rfl⟩

/-- There are no marks, or the last of them ends the type. -/
theorem takeDecoration_sound (text : Text) :
    text = (takeDecoration text).1 ++ (takeDecoration text).2 ∧
      ((takeDecoration text).1 = [] ∨ EndsInMark (takeDecoration text).1) := by
  obtain ⟨splitElement, element⟩ := takeHandles_sound text
  obtain ⟨splitPairs, pairs⟩ := takePairs_sound (takeHandles text).2
  rw [takeDecoration]
  dsimp only
  split
  · exact ⟨splitElement, handles_end _ element⟩
  · next read1 pairMarks rest some_pairs shape =>
      obtain ⟨splitHandles, handles⟩ := takeHandles_sound rest
      rw [shape] at splitPairs pairs
      have ends : EndsInMark pairMarks := by
        rcases pairs with empty | ends
        · exact absurd empty some_pairs
        · exact ends
      refine ⟨?_, Or.inr ((ends.behind _).append _ handles)⟩
      rw [List.append_assoc, ← splitHandles, List.append_assoc, ← splitPairs, ← splitElement]

theorem throughClosing_sound {α : Type} (next : Text → Option α) (text closed : Text) (found : α)
    (read : throughClosing next text = some (closed, found)) :
    ∃ tail, text = closed ++ tail ∧ next tail = some found ∧ EndsInMark closed := by
  induction text generalizing closed with
  | nil => cases read
  | cons first rest ih =>
      rw [throughClosing] at read
      split at read
      · cases read
      · dsimp only at read
        split at read
        · next later here =>
            split at here
            · next closing =>
                obtain ⟨rfl, rfl⟩ := Prod.mk.inj (Option.some.inj read)
                exact ⟨rest, rfl, here, [], first, rfl, by rw [closing]; decide⟩
            · cases here
        · obtain ⟨⟨closedLater, foundLater⟩, readLater, shape⟩ := Option.map_eq_some_iff.mp read
          obtain ⟨rfl, rfl⟩ := Prod.mk.inj shape
          obtain ⟨tail, split, accepted, ends⟩ := ih closedLater readLater
          exact ⟨tail, by rw [split]; rfl, accepted, ends.behind [first]⟩

/-- A type that was read ends in a mark, or it is a whole word. -/
def Spelled (type behind : Text) : Prop :=
  EndsInMark type ∨ type ≠ [] ∧ (∀ c ∈ type, isWordChar c = true) ∧ Stops isWordChar behind

theorem read?_sound {α : Type} (next : Text → Option α) (text type : Text) (found : α)
    (read : read? next text = some (type, found)) :
    ∃ tail, text = type ++ tail ∧ next tail = some found ∧ Spelled type tail := by
  rw [read?] at read
  split at read
  · cases read
  · next word rest run =>
      obtain ⟨rfl, some_char, chars, stop⟩ := Text.run?_some isWordChar text word rest run
      split at read
      · next inside array =>
          obtain ⟨⟨element, handles, foundInside⟩, closed, shape⟩ := Option.map_eq_some_iff.mp read
          obtain ⟨rfl, rfl⟩ := Prod.mk.inj shape
          obtain ⟨tail, split, accepted, ends⟩ := throughClosing_sound _ _ _ _ closed
          obtain ⟨foundBehind, here, handledShape⟩ := Option.map_eq_some_iff.mp accepted
          obtain ⟨rfl, rfl⟩ := Prod.mk.inj handledShape
          obtain ⟨splitHandles, only⟩ := takeHandles_sound tail
          have opening : rest = '<' :: inside := by
            split at array
            · exact Text.after?_some _ _ _ array
            · cases array
          refine ⟨_, ?_, here, Or.inl (((ends.append _ only).behind ['<']).behind word)⟩
          rw [opening, split]
          simp only [List.append_assoc, List.cons_append, ← splitHandles]
      · obtain ⟨split, decorated⟩ := takeDecoration_sound rest
        cases marks : takeDecoration rest with
        | mk decoration tail =>
            rw [marks] at read split decorated
            dsimp only at read split decorated
            obtain ⟨foundBehind, here, shape⟩ := Option.map_eq_some_iff.mp read
            obtain ⟨rfl, rfl⟩ := Prod.mk.inj shape
            refine ⟨tail, by rw [List.append_assoc, ← split], here, ?_⟩
            rcases decorated with rfl | ends
            · rw [List.nil_append] at split
              rw [List.append_nil, ← split]
              exact Or.inr ⟨some_char, chars, stop⟩
            · exact Or.inl (ends.behind word)

theorem readConst?_sound {α : Type} (next : Text → Option α) (text type : Text) (found : α)
    (read : readConst? isBlank next text = some (type, found)) :
    ∃ lead tail, text = lead ++ (type ++ tail) ∧ next tail = some found ∧ Spelled type tail := by
  rw [readConst?, Option.or_eq_some_iff] at read
  rcases read with behind | ⟨_, plain⟩
  · obtain ⟨rest, lead, readBehind⟩ := Option.bind_eq_some_iff.mp behind
    obtain ⟨blanks, const, skipped⟩ := Option.bind_eq_some_iff.mp lead
    obtain ⟨tail, rfl, accepted, spelled⟩ := read?_sound next rest type found readBehind
    have split := Text.after?_some _ _ _ const
    cases blanks with
    | nil => cases skipped
    | cons first blanks =>
        obtain ⟨gap, rest⟩ := Text.trimStart_split blanks
        rw [Text.afterSome?] at skipped
        split at skipped
        · rw [Text.trimStart, Option.some.inj skipped] at rest
          refine ⟨"const".toList ++ (first :: gap.text), tail, ?_, accepted, spelled⟩
          rw [split, rest, List.append_assoc, List.cons_append]
        · cases skipped
  · obtain ⟨tail, split, accepted, spelled⟩ := read?_sound next text type found plain
    exact ⟨[], tail, split, accepted, spelled⟩

end TypeSpelling

namespace Declaration

open TypeSpelling

/-- Behind the word of a mark a blank is left, as the word is read to its end and a name follows. -/
theorem afterReference?_sound (text start : Text) (name : Word) (rest : Text)
    (shape : start = name.text ++ rest) (read : afterReference? text = some start) :
    ∃ reference : Reference, text = reference.text ++ start := by
  rw [afterReference?.eq_def] at read
  split at read
  · next behind =>
      obtain ⟨⟨word, after⟩, run, read⟩ := Option.bind_eq_some_iff.mp read
      obtain ⟨split, _, _, stop⟩ := Text.run?_some isWordChar _ word after run
      obtain ⟨lead, splitLead⟩ := Text.trimStart_split behind
      obtain ⟨trail, splitTrail⟩ := Text.trimStart_split after
      dsimp only at read
      split at read
      · next listed =>
          obtain rfl := Option.some.inj read
          have some_blank : trail.text ≠ [] := by
            intro empty
            obtain ⟨first, later, head, char⟩ := name.head
            rw [splitTrail, empty, List.nil_append, shape, head, List.cons_append, stops_cons] at stop
            rw [char] at stop
            cases stop
          refine ⟨.mode lead word listed ⟨trail, some_blank⟩, ?_⟩
          change '&' :: behind = '&' :: ((lead.text ++ (word ++ trail.text)) ++ Text.trimStart after)
          rw [List.append_assoc, List.append_assoc, ← splitTrail, ← split, ← splitLead]
      · cases read
  · obtain rfl := Option.some.inj read
    exact ⟨.none, rfl⟩

theorem name?_sound (text name rest : Text) (read : name? text = some (name, rest)) :
    ∃ part : NamePart, text = part.text ++ rest ∧ part.name.text = name ∧
      ∃ trail : Gap, ∃ stop more, rest = trail.text ++ stop :: more ∧ endsName stop = true := by
  obtain ⟨start, reference, read⟩ := Option.bind_eq_some_iff.mp read
  obtain ⟨⟨word, behind⟩, run, read⟩ := Option.bind_eq_some_iff.mp read
  obtain ⟨stop, head, read⟩ := Option.bind_eq_some_iff.mp read
  obtain ⟨split, some_char, chars, _⟩ := Text.run?_some isWordChar start word behind run
  split at read
  · next ends =>
      obtain ⟨rfl, rfl⟩ := Prod.mk.inj (Option.some.inj read)
      obtain ⟨gap, splitGap⟩ := Text.trimStart_split text
      obtain ⟨trail, splitTrail⟩ := Text.trimStart_split behind
      obtain ⟨more, shape⟩ := List.head?_eq_some_iff.mp head
      let name : Word := ⟨word, some_char, chars⟩
      obtain ⟨mark, splitMark⟩ := afterReference?_sound (Text.trimStart text) start name behind split
        reference
      refine ⟨⟨gap, mark, name⟩, ?_, rfl, trail, stop, more, ?_, ends⟩
      · rw [splitGap, splitMark, split]
        simp [NamePart.text, name]
      · rw [← shape]
        exact splitTrail
  · cases read

structure Place (text : Text) (found : Declaration) where
  left : Text
  part : NamePart
  trail : Gap
  stop : Char
  rest : Text
  split : text = left ++ (found.type ++ (part.text ++ (trail.text ++ stop :: rest)))
  named : part.name.text = found.name
  ends : endsName stop = true
  spelled : Spelled found.type (part.text ++ (trail.text ++ stop :: rest))

def Place.after {text : Text} {found : Declaration} (place : Place text found) : Text :=
  place.trail.text ++ place.stop :: place.rest

theorem Place.split_after {text : Text} {found : Declaration} (place : Place text found) :
    text = (place.left ++ (found.type ++ place.part.text)) ++ place.after := by
  rw [List.append_assoc, List.append_assoc]
  exact place.split

/-- The name has been read, so what is left is a part of the text behind its first character. -/
theorem Place.after_suffix {first : Char} {rest : Text} {found : Declaration}
    (place : Place (first :: rest) found) : place.after <:+ rest := by
  obtain ⟨initial, others, head, _⟩ := place.part.name.head
  have split := place.split_after
  cases taken : place.left ++ (found.type ++ place.part.text) with
  | nil => simp [NamePart.text, head] at taken
  | cons read more =>
      rw [taken, List.cons_append, List.cons.injEq] at split
      exact ⟨more, split.2.symm⟩

def Place.behind {text : Text} {found : Declaration} (place : Place text found) (lead : Text) :
    Place (lead ++ text) found :=
  { place with
    left := lead ++ place.left
    split := by rw [List.append_assoc, ← place.split] }

def Unmarked (text : Text) : Prop :=
  ∀ front, ∀ trail : Gap, text ≠ front ++ '&' :: trail.text

theorem unmarked_behind (lead text : Text) (unmarked : Unmarked (lead ++ text)) : Unmarked text := by
  rintro front trail rfl
  exact unmarked (lead ++ front) trail (List.append_assoc _ _ _).symm

theorem unmarked_last (body : Text) (last : Char) (ends : body.getLast? = some last)
    (notBlank : isBlank last = false) (notReference : last ≠ '&') (gap : Gap) :
    Unmarked (body ++ gap.text) := by
  intro front trail same
  have bodyEnds : Stops isBlank body.reverse := by
    intro c head
    rw [List.head?_reverse, ends, Option.some.injEq] at head
    rw [← head]
    exact notBlank
  have frontEnds : Stops isBlank (front ++ ['&']).reverse :=
    (stops_reverse isBlank front ['&'] (by simp)).mpr ((stops_cons _ _ _).mpr rfl)
  have left := Text.trimEnd_gap body gap bodyEnds
  have right := Text.trimEnd_gap (front ++ ['&']) trail frontEnds
  rw [List.append_assoc, List.singleton_append, ← same, left] at right
  rw [right, List.getLast?_concat, Option.some.injEq] at ends
  exact notReference ends.symm

theorem spelled_last (type behind : Text) (spelled : Spelled type behind) :
    ∃ last, type.getLast? = some last ∧ isBlank last = false ∧ last ≠ '&' := by
  rcases spelled with ⟨front, last, rfl, mark⟩ | ⟨some_char, chars, _⟩
  · obtain ⟨notBlank, notReference⟩ := (by decide : ∀ c ∈ ['@', ']', '>'],
      isBlank c = false ∧ c ≠ '&') last mark
    exact ⟨last, List.getLast?_concat, notBlank, notReference⟩
  · have char := chars _ (List.getLast_mem some_char)
    exact ⟨_, List.getLast?_eq_some_getLast some_char, word_not_blank _ char,
      kept_ne isWordChar _ '&' char rfl⟩

section Border

variable (lead type : Text) (part : NamePart) (rest : Text)
variable (spelled : Spelled type (part.text ++ rest))
include spelled

/-- The name begins where it is read: the character in front of it is no part of a word. -/
theorem border_stops :
    Stops isWordChar (lead ++ (type ++ (part.gap.text ++ part.reference.text))).reverse := by
  have behindBlank (front : Text) (gap : Break) : Stops isWordChar (front ++ gap.text).reverse := by
    rw [stops_reverse isWordChar front gap.text gap.some_blank]
    exact stops_apart isWordChar gap.text fun c member => blank_not_word c (gap.blank c member)
  cases reference : part.reference with
  | mode blanks word listed trail =>
      simpa [Reference.text] using
        behindBlank (lead ++ (type ++ (part.gap.text ++ '&' :: (blanks.text ++ word)))) trail
  | none =>
      by_cases touching : part.gap.text = []
      · rcases spelled with ⟨front, last, rfl, mark⟩ | ⟨_, _, stop⟩
        · have apart := mark_not_word last mark
          simpa [touching, Reference.text, stops_cons] using apart
        · -- A word alone would have been read on into the name.
          obtain ⟨first, others, shape, char⟩ := part.name.head
          rw [NamePart.text, touching, reference, shape] at stop
          have refused := (stops_cons isWordChar first _).mp stop
          rw [char] at refused
          cases refused
      · simpa [Reference.text] using behindBlank (lead ++ type) ⟨part.gap, touching⟩

theorem border_unmarked :
    Unmarked (lead ++ (type ++ (part.gap.text ++ part.reference.text))) := by
  cases reference : part.reference with
  | mode blanks word listed trail =>
      obtain ⟨some_char, chars⟩ := mode_chars word listed
      have char := chars _ (List.getLast_mem some_char)
      have ends := List.getLast?_eq_some_getLast some_char
      have unmarked := unmarked_last (lead ++ (type ++ (part.gap.text ++ '&' :: (blanks.text ++ word))))
        _ (by simp only [List.getLast?_append, List.getLast?_cons, ends]; rfl) (word_not_blank _ char)
        (kept_ne isWordChar _ '&' char rfl) trail.toGap
      simpa [Reference.text] using unmarked
  | none =>
      obtain ⟨last, ends, notBlank, notReference⟩ := spelled_last type _ spelled
      have unmarked := unmarked_last (lead ++ type) last
        (by rw [List.getLast?_append, ends, Option.some_or]) notBlank notReference part.gap
      simpa [Reference.text] using unmarked

end Border

theorem rule_place (before : Option Char) (text rest : Text) (found : Declaration)
    (read : rule before text = some (found, rest)) :
    ∃ place : Place text found, rest = place.after := by
  rw [rule] at read
  split at read
  · obtain ⟨⟨type, name, after⟩, declared, shape⟩ := Option.map_eq_some_iff.mp read
    obtain ⟨rfl, rfl⟩ := Prod.mk.inj shape
    obtain ⟨left, tail, split, readName, spelled⟩ := readConst?_sound name? text type _ declared
    obtain ⟨part, splitName, named, trail, stop, more, splitRest, ends⟩ :=
      name?_sound tail name after readName
    rw [splitRest] at splitName
    rw [splitName] at split spelled
    exact ⟨⟨left, part, trail, stop, more, split, named, ends, spelled⟩, splitRest⟩
  · cases read

/-- The declarations stand in the text one behind another, each behind the name of the one before. -/
inductive InOrder : Text → List Declaration → Prop
  | done (text : Text) : InOrder text []
  | next {text : Text} {found : Declaration} {others : List Declaration}
      (place : Place text found) (later : InOrder place.after others) :
      InOrder text (found :: others)

namespace InOrder

theorem behind {text : Text} {found : List Declaration} (inOrder : InOrder text found) (lead : Text) :
    InOrder (lead ++ text) found := by
  cases inOrder with
  | done => exact .done _
  | next place later => exact .next (place.behind lead) later

theorem filter {text : Text} {found : List Declaration} (inOrder : InOrder text found)
    (keep : Declaration → Bool) : InOrder text (found.filter keep) := by
  induction inOrder with
  | done text => exact .done text
  | @next text found others place _ ih =>
      rw [List.filter_cons]
      split
      · exact .next place ih
      · rw [place.split_after]
        exact ih.behind _

theorem place {text : Text} {declared : List Declaration} (inOrder : InOrder text declared)
    (found : Declaration) (member : found ∈ declared) : Nonempty (Place text found) := by
  induction inOrder with
  | done => cases member
  | @next text first others here _ ih =>
      rcases List.mem_cons.mp member with rfl | later
      · exact ⟨here⟩
      · obtain ⟨place⟩ := ih later
        rw [here.split_after]
        exact ⟨place.behind _⟩

end InOrder

/-- A match takes its name at least, so the search goes on with what the match has left. -/
theorem scan_inOrder (text : Text) (skip : Nat) (before : Option Char) :
    InOrder (text.drop skip) (findFrom rule skip before text) := by
  induction text generalizing skip before with
  | nil => exact .done _
  | cons first rest ih =>
      cases skip with
      | succ skip => exact ih skip (some first)
      | zero =>
          rw [List.drop_zero, findFrom]
          split
          · exact (ih 0 (some first)).behind [first]
          · next found after read =>
              obtain ⟨place, rfl⟩ := rule_place before _ after found read
              have later := ih (rest.length - place.after.length) (some first)
              rw [← List.suffix_iff_eq_drop.mp place.after_suffix] at later
              exact .next place later

/-- Where no character ends a name, nothing is declared. -/
theorem scan_unended (text : Text) (unended : ∀ c ∈ text, endsName c = false)
    (before : Option Char) : findFrom rule 0 before text = [] := by
  rw [List.eq_nil_iff_forall_not_mem]
  intro found member
  have inOrder : InOrder text (findFrom rule 0 before text) := scan_inOrder text 0 before
  obtain ⟨left, part, trail, stop, rest, split, _, ends, _⟩ := inOrder.place found member
  have inText : stop ∈ text := by simp [split]
  rw [unended stop inText] at ends
  cases ends

end Declaration

theorem declarations_inOrder (text : Text) : Declaration.InOrder text (declarations text) :=
  (Declaration.scan_inOrder text 0 none).filter _

end ScriptSense
