import ScriptSense.Manual
import ScriptSense.Proofs.Class

/-!
The line patterns of the manual. A name reaches up to the last parenthesis of its word, so a line
whose parameters begin with a word without one is read in one way. What a pattern takes and what it
leaves make up the text that it reads.
-/
namespace ScriptSense

namespace Manual

def headWord (text : Text) : Text := text.takeWhile (!isBlank ·)

theorem headWord_word (word rest : Text) (visible : ∀ c ∈ word, isBlank c = false) :
    headWord (word ++ rest) = word ++ headWord rest :=
  List.takeWhile_append_of_pos fun c member => by simp [visible c member]

theorem headWord_suffix (word rest : Text) (visible : ∀ c ∈ word, isBlank c = false) (c : Char)
    (absent : c ∉ headWord (word ++ rest)) : c ∉ headWord rest := by
  rw [headWord_word word rest visible, List.mem_append, not_or] at absent
  exact absent.2

section
variable {α : Type} (next : Text → Option α)

theorem splitParen?_none (text : Text) (noParen : '(' ∉ headWord text) : splitParen? next text = none := by
  induction text with
  | nil => rfl
  | cons first rest ih =>
      rw [splitParen?]
      cases blank : isBlank first with
      | true => rfl
      | false =>
          rw [headWord, List.takeWhile_cons_of_pos (by simp [blank]), List.mem_cons, not_or] at noParen
          simp [ih noParen.2, Ne.symm noParen.1]

/-- The parenthesis is the last one of its word. -/
theorem splitParen?_last (word rest : Text) (visible : ∀ c ∈ word, isBlank c = false)
    (apart : '(' ∉ word) (last : '(' ∉ headWord rest) :
    splitParen? next (word ++ '(' :: rest) = (next rest).map fun found => (word, found) := by
  induction word with
  | nil =>
      rw [List.nil_append, splitParen?, splitParen?_none next rest last]
      rfl
  | cons first word ih =>
      rw [List.forall_mem_cons] at visible
      rw [List.mem_cons, not_or] at apart
      rw [List.cons_append, splitParen?, visible.1, ih visible.2 apart.2]
      cases next rest with
      | none => simp [Ne.symm apart.1]
      | some found => rfl

theorem splitParen?_some (text word : Text) (found : α) (read : splitParen? next text = some (word, found)) :
    ∃ rest, text = word ++ '(' :: rest ∧ next rest = some found := by
  induction text generalizing word with
  | nil => cases read
  | cons first text ih =>
      rw [splitParen?] at read
      split at read
      · cases read
      · split at read
        · next later _ shape =>
            cases read
            obtain ⟨rest, split, accepted⟩ := ih later shape
            exact ⟨rest, by rw [split, List.cons_append], accepted⟩
        · split at read
          · next paren =>
              obtain ⟨_, accepted, same⟩ := Option.map_eq_some_iff.mp read
              cases same
              exact ⟨text, by rw [paren, List.nil_append], accepted⟩
          · cases read

end

section
variable (next : Text → Option Text)

theorem nameAndParameters?_none (text : Text) (noParen : '(' ∉ headWord text) :
    nameAndParameters? next text = none := by
  cases text with
  | nil => rfl
  | cons first rest =>
      rw [nameAndParameters?]
      cases blank : isBlank first with
      | true => rfl
      | false =>
          rw [headWord, List.takeWhile_cons_of_pos (by simp [blank]), List.mem_cons, not_or] at noParen
          simp [splitParen?_none next rest noParen.2]

theorem nameAndParameters?_some (text name parameters : Text)
    (read : nameAndParameters? next text = some (name, parameters)) :
    ∃ rest, text = name ++ '(' :: rest ∧ next rest = some parameters := by
  cases text with
  | nil => cases read
  | cons first text =>
      rw [nameAndParameters?] at read
      split at read
      · cases read
      · obtain ⟨⟨word, found⟩, split, same⟩ := Option.map_eq_some_iff.mp read
        cases same
        obtain ⟨rest, shape, accepted⟩ := splitParen?_some next text word _ split
        exact ⟨rest, by rw [shape, List.cons_append], accepted⟩

theorem globalName?_none (text : Text) (noParen : '(' ∉ headWord text) : globalName? next text = none := by
  rw [globalName?, nameAndParameters?_none next text noParen, Option.or_none]
  cases read : Text.after? "::".toList text with
  | none => rfl
  | some rest =>
      rw [Text.after?_some _ _ _ read] at noParen
      exact nameAndParameters?_none next rest (headWord_suffix _ rest (by decide) '(' noParen)

/-- An identifier in front of a parenthesis is the name if no other parenthesis follows in its word. -/
theorem nameAndParameters?_named (name rest : Text) (identifier : Text.isIdentifier name = true)
    (last : '(' ∉ headWord rest) :
    nameAndParameters? next (name ++ '(' :: rest) = (next rest).map fun found => (name, found) := by
  obtain ⟨some_char, chars⟩ := Text.identifier_chars name identifier
  obtain ⟨first, more, rfl⟩ := List.exists_cons_of_ne_nil some_char
  have visible : ∀ c ∈ first :: more, isBlank c = false := fun c member =>
    name_not_blank c (chars c member)
  have apart : '(' ∉ first :: more := fun member => absurd (chars '(' member) (by decide)
  rw [List.forall_mem_cons] at visible
  rw [List.mem_cons, not_or] at apart
  rw [List.cons_append, nameAndParameters?, visible.1, splitParen?_last next more rest visible.2 apart.2 last]
  cases next rest <;> rfl

theorem globalName?_unprefixed (name rest : Text) (identifier : Text.isIdentifier name = true) :
    globalName? next (name ++ rest) = nameAndParameters? next (name ++ rest) := by
  obtain ⟨some_char, chars⟩ := Text.identifier_chars name identifier
  obtain ⟨first, more, rfl⟩ := List.exists_cons_of_ne_nil some_char
  have apart : ':' ≠ first := by
    rintro rfl
    exact absurd (chars ':' List.mem_cons_self) (by decide)
  have unread : Text.after? "::".toList (first :: more ++ rest) = none := if_neg apart
  rw [globalName?, unread]
  rfl

theorem globalName?_named (name rest parameters : Text) (identifier : Text.isIdentifier name = true)
    (last : '(' ∉ headWord rest) (read : next rest = some parameters) :
    globalName? next (name ++ '(' :: rest) = some (name, parameters) := by
  rw [globalName?_unprefixed next name _ identifier,
    nameAndParameters?_named next name rest identifier last, read]
  rfl

end

theorem colonSplits_split (text left right : Text) (member : (left, right) ∈ colonSplits text) :
    text = left ++ "::".toList ++ right ∧ ∀ c ∈ left, isBlank c = false := by
  induction text generalizing left with
  | nil => cases member
  | cons first rest ih =>
      rw [colonSplits] at member
      split at member
      · cases member
      · next visible =>
          rw [Bool.not_eq_true] at visible
          have later (inLater : (left, right) ∈
              (colonSplits rest).map fun split => (first :: split.1, split.2)) :
              first :: rest = left ++ "::".toList ++ right ∧ ∀ c ∈ left, isBlank c = false := by
            obtain ⟨⟨front, behind⟩, inRest, same⟩ := List.mem_map.mp inLater
            cases same
            obtain ⟨split, inFront⟩ := ih front inRest
            exact ⟨by rw [split]; rfl, List.forall_mem_cons.mpr ⟨visible, inFront⟩⟩
          dsimp only at member
          split at member
          · rcases List.mem_cons.mp member with same | inLater
            · cases same
              exact ⟨rfl, List.forall_mem_cons.mpr ⟨visible, List.forall_mem_nil _⟩⟩
            · exact later inLater
          · exact later member

/-- Behind a name without colons no split leaves a parenthesis in the next word. -/
theorem colonSplits_named (name rest left right : Text) (identifier : Text.isIdentifier name = true)
    (last : '(' ∉ headWord rest) (member : (left, right) ∈ colonSplits (name ++ '(' :: rest)) :
    '(' ∉ headWord right := by
  obtain ⟨_, chars⟩ := Text.identifier_chars name identifier
  obtain ⟨split, visible⟩ := colonSplits_split _ left right member
  rw [List.append_assoc] at split
  rcases List.append_eq_append_iff.mp split with ⟨middle, front, behind⟩ | ⟨middle, front, behind⟩
  · cases middle with
    | nil => cases behind
    | cons first middle =>
        obtain ⟨_, rfl⟩ := List.cons.inj behind
        rw [front] at visible
        have inMiddle : ∀ c ∈ middle, isBlank c = false := fun c inside =>
          visible c (List.mem_append_right _ (List.mem_cons_of_mem first inside))
        exact headWord_suffix _ right (by decide) '(' (headWord_suffix middle _ inMiddle '(' last)
  · cases middle with
    | nil => cases behind
    | cons first middle =>
        obtain ⟨rfl, _⟩ := List.cons.inj behind
        have colon := chars ':' (front ▸ List.mem_append_right _ List.mem_cons_self)
        exact absurd colon (by decide)

/-- The first split is at the end of an identifier. -/
theorem colonSplits_qualifier (qualifier rest : Text) (some_char : qualifier ≠ [])
    (chars : ∀ c ∈ qualifier, isNameChar c = true) :
    ∃ later, colonSplits (qualifier ++ "::".toList ++ rest) = (qualifier, rest) :: later := by
  induction qualifier with
  | nil => exact absurd rfl some_char
  | cons first qualifier ih =>
      rw [List.forall_mem_cons] at chars
      have visible := name_not_blank first chars.1
      cases qualifier with
      | nil => exact ⟨_, by rw [List.append_assoc, List.cons_append, colonSplits, visible]; rfl⟩
      | cons second more =>
          obtain ⟨later, split⟩ := ih (List.cons_ne_nil second more) chars.2
          refine ⟨later.map fun split => (first :: split.1, split.2), ?_⟩
          rw [List.cons_append, List.cons_append, colonSplits, if_neg (by simp [visible]), split]
          dsimp only
          split
          · next colon =>
              obtain ⟨rfl, _⟩ := List.cons.inj colon
              exact absurd (chars.2 ':' List.mem_cons_self) (by decide)
          · rfl

theorem firstWord?_spaced (type rest : Text) (some_char : type ≠ [])
    (visible : ∀ c ∈ type, isBlank c = false) (stop : Stops isBlank rest) :
    firstWord? (type ++ ' ' :: rest) = some (type, rest) := by
  have word : Text.run? (!isBlank ·) (type ++ ' ' :: rest) = some (type, ' ' :: rest) :=
    Text.run?_run _ type _ some_char (fun c member => by simp [visible c member])
      ((stops_cons _ ' ' rest).mpr (by decide))
  have skipped : Text.afterSome? isBlank (' ' :: rest) = some rest := by
    have whole : rest.dropWhile isBlank = rest := Text.dropWhile_run isBlank [] rest (List.forall_mem_nil _) stop
    rw [Text.afterSome?, if_pos (by decide), whole]
  rw [firstWord?, word]
  simp [skipped]

theorem upToEnd?_close (list : Text) (oneLine : '\n' ∉ list) : upToEnd? (list ++ [')']) = some list := by
  rw [upToEnd?, List.reverse_append]
  simp [closed?, oneLine]

theorem upToEndOrConst?_close (list : Text) (oneLine : '\n' ∉ list) :
    upToEndOrConst? (list ++ [')']) = some list := by
  rw [upToEndOrConst?, upToEnd?_close list oneLine]
  rfl

theorem upToEndOrConst?_const (list : Text) (oneLine : '\n' ∉ list) :
    upToEndOrConst? (list ++ ')' :: " const".toList) = some list := by
  have reversed : (list ++ ')' :: " const".toList).reverse =
      "const".toList.reverse ++ ' ' :: (list ++ [')']).reverse := by
    simp
  have skipped : Text.afterSome? isBlank (' ' :: (list ++ [')']).reverse) =
      some (list ++ [')']).reverse := by
    rw [List.reverse_append, Text.afterSome?, if_pos (by decide)]
    rfl
  have closes : closed? (list ++ [')']).reverse = some list := upToEnd?_close list oneLine
  have open_end : upToEnd? (list ++ ')' :: " const".toList) = none := by
    rw [upToEnd?, reversed]
    rfl
  rw [upToEndOrConst?, open_end, reversed, Text.after?_append, Option.bind_some, skipped,
    Option.bind_some, closes]
  rfl

section
variable (type name rest parameters : Text) (some_type : type ≠ [])
variable (visible : ∀ c ∈ type, isBlank c = false) (identifier : Text.isIdentifier name = true)
include some_type visible identifier

theorem firstWord?_named (tail : Text) :
    firstWord? (type ++ ' ' :: (name ++ tail)) = some (type, name ++ tail) := by
  obtain ⟨some_char, chars⟩ := Text.identifier_chars name identifier
  obtain ⟨first, more, rfl⟩ := List.exists_cons_of_ne_nil some_char
  refine firstWord?_spaced type _ some_type visible ((stops_cons isBlank first _).mpr ?_)
  exact name_not_blank first (chars first List.mem_cons_self)

theorem functionLine?_named (tail : Text) :
    functionLine? (type ++ ' ' :: (name ++ tail)) =
      (((colonSplits (name ++ tail)).findSome? fun split =>
          (globalName? upToEndOrConst? split.2).map fun found => (some split.1, found)).or
        ((globalName? upToEndOrConst? (name ++ tail)).map fun found => (none, found))).map
      fun found => ⟨found.1, type, found.2.1, Signature.parse found.2.2⟩ := by
  rw [functionLine?, firstWord?_named type name some_type visible identifier, Option.bind_eq_bind,
    Option.bind_some, Option.map_eq_bind]
  rfl

/-- Where the name is known, the line has one reading outside of namespaces. -/
theorem functionLine?_read (list : Text) (oneLine : '\n' ∉ list) (line : FunctionLine)
    (read : functionLine? (type ++ ' ' :: (name ++ '(' :: (list ++ [')']))) = some line)
    (named : line.name = name) (global : line.qualifier = none) :
    line = ⟨none, type, name, Signature.parse list⟩ := by
  rw [functionLine?_named type name some_type visible identifier] at read
  obtain ⟨⟨qualifier, found, parameters⟩, chosen, rfl⟩ := Option.map_eq_some_iff.mp read
  obtain rfl : qualifier = none := global
  obtain rfl : found = name := named
  rcases Option.or_eq_some_iff.mp chosen with inNamespace | ⟨_, outside⟩
  · obtain ⟨split, _, accepted⟩ := List.exists_of_findSome?_eq_some inNamespace
    obtain ⟨_, _, same⟩ := Option.map_eq_some_iff.mp accepted
    cases same
  · obtain ⟨_, accepted, same⟩ := Option.map_eq_some_iff.mp outside
    cases same
    rw [globalName?_unprefixed upToEndOrConst? found _ identifier] at accepted
    obtain ⟨behind, split, closed⟩ := nameAndParameters?_some upToEndOrConst? _ _ _ accepted
    obtain rfl := (List.cons.inj (List.append_cancel_left split)).2
    rw [upToEndOrConst?_close list oneLine, Option.some.injEq] at closed
    rw [closed]

variable (last : '(' ∉ headWord rest)
include last

theorem functionLine?_global (read : upToEndOrConst? rest = some parameters) :
    functionLine? (type ++ ' ' :: (name ++ '(' :: rest)) =
      some ⟨none, type, name, Signature.parse parameters⟩ := by
  have inNamespace : (colonSplits (name ++ '(' :: rest)).findSome? (fun split =>
      (globalName? upToEndOrConst? split.2).map fun found => (some split.1, found)) = none := by
    refine List.findSome?_eq_none_iff.mpr fun split member => ?_
    have noParen := colonSplits_named name rest split.1 split.2 identifier last member
    rw [globalName?_none upToEndOrConst? split.2 noParen]
    rfl
  have global := globalName?_named upToEndOrConst? name rest parameters identifier last read
  rw [functionLine?_named type name some_type visible identifier, inNamespace, global]
  rfl

theorem functionLine?_qualified (qualifier : Text) (qualifies : Text.isIdentifier qualifier = true)
    (read : upToEndOrConst? rest = some parameters) :
    functionLine? (type ++ ' ' :: (qualified qualifier name ++ '(' :: rest)) =
      some ⟨some qualifier, type, name, Signature.parse parameters⟩ := by
  obtain ⟨some_char, chars⟩ := Text.identifier_chars qualifier qualifies
  obtain ⟨later, splits⟩ := colonSplits_qualifier qualifier (name ++ '(' :: rest) some_char chars
  have global := globalName?_named upToEndOrConst? name rest parameters identifier last read
  rw [List.append_assoc] at splits
  rw [qualified, List.append_assoc, List.append_assoc,
    functionLine?_named type qualifier some_type visible qualifies, splits, List.findSome?_cons, global]
  rfl

theorem hookLine?_named (read : upToEnd? rest = some parameters) :
    hookLine? (type ++ ' ' :: (name ++ '(' :: rest)) =
      some (Callable.hook type name (Signature.parse parameters)) := by
  rw [hookLine?, firstWord?_named type name some_type visible identifier, Option.bind_eq_bind,
    Option.bind_some]
  dsimp only
  rw [nameAndParameters?_named upToEnd? name rest identifier last, read]
  rfl

theorem methodLine?_named (read : upToEndOrConst? rest = some parameters) :
    methodLine? (type ++ ' ' :: (name ++ '(' :: rest)) =
      some (type, name, Signature.parse parameters) := by
  rw [methodLine?, firstWord?_named type name some_type visible identifier, Option.bind_eq_bind,
    Option.bind_some]
  dsimp only
  rw [globalName?_named upToEndOrConst? name rest parameters identifier last read]
  rfl

end

end Manual

end ScriptSense
