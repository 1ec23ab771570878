import ScriptSense.Proofs.Attached
import ScriptSense.Proofs.Literal
import ScriptSense.Proofs.TokenEnd
import ScriptSense.Script

/-!
String literals in a script whose comments are removed. Each literal keeps its place. Its quotes keep
handles outside of it, but handles are attached in all of the text, so a literal reads as before exactly
if none of those in it stands apart from a type.
-/
namespace ScriptSense

def HasDetached (text : Text) : Prop :=
  ∃ lead last gap rest, text = lead ++ last :: (gap ++ '@' :: rest) ∧ endsType last = true ∧
    gap ≠ [] ∧ ∀ c ∈ gap, isInlineBlank c = true

theorem adjacent_iff (text : Text) :
    Adjacent text ↔ ¬∃ gap rest, text = gap ++ '@' :: rest ∧ gap ≠ [] ∧
      ∀ c ∈ gap, isInlineBlank c = true := by
  constructor
  · rintro adjacent ⟨gap, rest, rfl, some_blank, inline⟩
    have stop : Stops isInlineBlank ('@' :: rest) := (stops_cons isInlineBlank '@' rest).mpr (by decide)
    rw [Adjacent, Attached, Text.takeWhile_run _ _ _ inline stop, Text.dropWhile_run _ _ _ inline stop]
      at adjacent
    rcases adjacent with empty | other
    · exact some_blank empty
    · exact other rfl
  · intro apart
    by_contra detached
    rw [Adjacent, Attached, not_or, not_not] at detached
    obtain ⟨rest, marked⟩ := List.head?_eq_some_iff.mp detached.2
    refine apart ⟨text.takeWhile isInlineBlank, rest, ?_, detached.1, fun c member =>
      List.mem_takeWhile_imp member⟩
    rw [← marked, List.takeWhile_append_dropWhile]

theorem allAttached_iff (text : Text) : AllAttached text ↔ ¬HasDetached text := by
  induction text with
  | nil =>
      refine iff_of_true trivial ?_
      rintro ⟨lead, last, gap, rest, split, _⟩
      exact absurd split.symm (by simp)
  | cons first text ih =>
      rw [AllAttached, ih, adjacent_iff]
      constructor
      · rintro ⟨here, later⟩ ⟨lead, last, gap, rest, split, ends, some_blank, inline⟩
        cases lead with
        | nil =>
            obtain ⟨rfl, rfl⟩ := List.cons.inj split
            exact here ends ⟨gap, rest, rfl, some_blank, inline⟩
        | cons other lead =>
            obtain ⟨rfl, rfl⟩ := List.cons.inj split
            exact later ⟨lead, last, gap, rest, rfl, ends, some_blank, inline⟩
      · intro attached
        refine ⟨fun ends => ?_, ?_⟩
        · rintro ⟨gap, rest, rfl, some_blank, inline⟩
          exact attached ⟨[], first, gap, rest, rfl, ends, some_blank, inline⟩
        · rintro ⟨lead, last, gap, rest, rfl, ends, some_blank, inline⟩
          exact attached ⟨first :: lead, last, gap, rest, rfl, ends, some_blank, inline⟩

/-- Attaching handles leaves a text as it is exactly if no handle stands apart. -/
theorem attachHandles_eq_iff (text : Text) : attachHandles text = text ↔ ¬HasDetached text := by
  rw [← allAttached_iff]
  refine ⟨fun same => ?_, AllAttached.attached text⟩
  rw [← same]
  exact allAttached_attachHandles text

namespace Token

/-- A string begins with a quote, and one that anything follows ends with it. -/
theorem string_shape (text : Text) (before after : List Token) (token : Token)
    (scanned : tokenize text = before ++ token :: after) (string : token.kind.isString = true) :
    ∃ quote body, token.text = Quote.char quote :: body ∧
      (after = [] ∨ ∃ front, token.text = front ++ [Quote.char quote]) := by
  obtain ⟨kind, content⟩ := token
  cases kind with
  | string quote closed =>
      have delimited := tokenize_delimited text ⟨.string quote closed, content⟩
        (by rw [scanned]; simp)
      obtain ⟨body, shape, _⟩ := delimited quote closed rfl
      have shape : content = quote.char :: body := shape
      refine ⟨quote, body, shape, ?_⟩
      cases closed with
      | true =>
          obtain ⟨interior, whole⟩ := delimited.closed_text
          exact .inr ⟨quote.char :: interior, whole⟩
      | false =>
          have split : texts before ++ (quote.char :: (body ++ texts after)) = text := by
            rw [← tokenize_text text, scanned, List.flatMap_append, List.flatMap_cons, shape]
            rfl
          rw [← split] at scanned
          have behind := tokenize_behind before _ quote.char _ scanned
          obtain ⟨rest, _, later, ends⟩ := first_token _ _ after behind
          rw [ends.string_open quote rfl] at later
          exact .inl later.symm
  | _ => cases string

/-- A string is read apart from what surrounds it. -/
theorem stripComments_string (text : Text) (before after : List Token) (token : Token)
    (scanned : tokenize text = before ++ token :: after) (string : token.kind.isString = true) :
    stripComments text = stripped before ++ (attachHandles token.text ++ stripped after) := by
  obtain ⟨quote, body, shape, ends⟩ := string_shape text before after token scanned string
  obtain ⟨notBlank, notHandle, _⟩ := quote.apart
  have kept : token.blanked false = token.text := by
    obtain ⟨kind, content⟩ := token
    cases kind with
    | string => rfl
    | _ => cases string
  have behind : attachHandles (token.text ++ after.flatMap (blanked false)) =
      attachHandles token.text ++ stripped after := by
    rcases ends with rfl | ⟨front, ending⟩
    · simp [stripped, attachHandles]
    · rw [ending, List.append_assoc, List.singleton_append, quote.attachHandles_split,
        quote.attachHandles_split]
      simp [stripped, attachHandles]
  rw [stripComments, blankTrivia, scanned, List.flatMap_append, List.flatMap_cons, kept, stripped, ← behind,
    shape, List.cons_append, attachHandles_stop quote.char notBlank notHandle]

theorem stripped_length (tokens : List Token) :
    Text.byteLength (stripped tokens) = Text.byteLength (texts tokens) := by
  have blanks := SameLayout.flatMap tokens (·.text) (blanked false) fun token _ => by
    obtain ⟨kind, content⟩ := token
    cases kind with
    | lineComment => exact blank_layout content
    | blockComment closed => exact blank_layout content
    | string quote closed => exact .refl content
    | slash => exact .refl content
    | code => exact .refl content
  exact (blanks.trans (attachHandles_layout _)).length

theorem placed_split (start : Nat) (tokens : List Token) (entry : Nat × Token)
    (member : entry ∈ placed start tokens) :
    ∃ before after, tokens = before ++ entry.2 :: after ∧
      entry.1 = start + Text.byteLength (texts before) := by
  induction tokens generalizing start with
  | nil => cases member
  | cons token rest ih =>
      rcases List.mem_cons.mp member with rfl | later
      · exact ⟨[], rest, rfl, rfl⟩
      · obtain ⟨before, after, rfl, place⟩ := ih _ later
        refine ⟨token :: before, after, rfl, ?_⟩
        rw [place, texts, texts, List.flatMap_cons, Text.byteLength_append, Nat.add_assoc]

end Token

def Text.slice (start size : Nat) (text : Text) : Text := takeBytes size (dropBytes start text)

theorem Text.slice_append (front middle back : Text) (start size : Nat)
    (behind : start = byteLength front) (length : size = byteLength middle) :
    slice start size (front ++ (middle ++ back)) = middle := by
  rw [slice, behind, length, dropBytes_append, takeBytes_append]

/-- Without comments a string literal of the text stands where it stood, with its handles attached. It has
the bytes that it had exactly if none of its handles stood apart. -/
theorem literal_without_comments (text : Text) (entry : Nat × Token)
    (member : entry ∈ placed 0 (tokenize text)) (string : entry.2.kind.isString = true) :
    let size := Text.byteLength entry.2.text
    Text.slice entry.1 size text = entry.2.text ∧
      Text.slice entry.1 size (stripComments text) = attachHandles entry.2.text ∧
      (Text.slice entry.1 size (stripComments text) = Text.slice entry.1 size text ↔
        ¬HasDetached entry.2.text) := by
  intro size
  obtain ⟨before, after, scanned, place⟩ := Token.placed_split 0 _ entry member
  rw [Nat.zero_add] at place
  have whole : text = Token.texts before ++ (entry.2.text ++ Token.texts after) := by
    conv_lhs => rw [← Token.tokenize_text text, scanned, List.flatMap_append, List.flatMap_cons]
    rfl
  have written : Text.slice entry.1 size text = entry.2.text := by
    conv_lhs => rw [whole]
    exact Text.slice_append _ _ _ _ _ place rfl
  have stripped : Text.slice entry.1 size (stripComments text) = attachHandles entry.2.text := by
    rw [Token.stripComments_string text before after entry.2 scanned string]
    refine Text.slice_append _ _ _ _ _ ?_ (attachHandles_layout entry.2.text).length.symm
    rw [place, Token.stripped_length]
  refine ⟨written, stripped, ?_⟩
  rw [stripped, written, attachHandles_eq_iff]

-- A comment with a wide character stands in front of the literal, and a handle is in it.
theorem literal_without_comments_handle :
    let text : Text := "/* é @ */ say('CBlob@ é');".toList
    let literal : Token := ⟨.string .single true, "'CBlob@ é'".toList⟩
    (15, literal) ∈ placed 0 (tokenize text) ∧ literal.kind.isString = true ∧
      ¬HasDetached literal.text ∧ Text.slice 15 11 (stripComments text) = Text.slice 15 11 text := by
  intro text literal
  have member : (15, literal) ∈ placed 0 (tokenize text) := by decide +kernel
  obtain ⟨_, _, same⟩ := literal_without_comments text (15, literal) member rfl
  have attached : ¬HasDetached literal.text := (attachHandles_eq_iff _).mp (by decide +kernel)
  exact ⟨member, rfl, attached, same.mpr attached⟩

/-- The handle in an included path is taken for one that stands apart from a type. -/
theorem included_path_changed :
    let text : Text := "#include \"a @b.as\"".toList
    (9, (Quote.double.literal "a @b.as".toList)) ∈ placed 0 (tokenize text) ∧
      Text.slice 9 9 text = "\"a @b.as\"".toList ∧
      Text.slice 9 9 (stripComments text) = "\"a@ b.as\"".toList ∧
      (Script.parse text).includes = ["a@ b.as".toList] := by
  decide +kernel

end ScriptSense
