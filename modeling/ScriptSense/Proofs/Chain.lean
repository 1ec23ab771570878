import ScriptSense.Chain
import ScriptSense.Proofs.Folding

/-!
Reading a chain undoes writing it. A chain is written as segments behind which a `.` stands; the
arguments of its calls, the blanks between its parts and the text before it are arbitrary, as long
as that text does not go on into the first name. Brackets left open before the chain only put it
into a deeper group, which the folded text shows in the same way.
-/
namespace ScriptSense

theorem name_plain (c : Char) (name : isNameChar c = true) : parens.IsPlain c :=
  parens.plain_of_kept isNameChar ⟨rfl, rfl⟩ c name

theorem name_text_plain (c : Char) (part : isNameChar c = true ∨ c = ':') : parens.IsPlain c := by
  rcases part with name | rfl
  · exact name_plain c name
  · exact ⟨by decide, by decide⟩

def colons : Text := "::".toList

structure QualifiedName where
  rooted : Bool
  words : List Text
  named : words ≠ [] := by decide
  identifiers : ∀ word ∈ words, Text.isIdentifier word = true := by decide

def QualifiedName.text (name : QualifiedName) : Text :=
  (if name.rooted then colons else []) ++ colons.intercalate name.words

inductive Segment.Written where
  | access (name : QualifiedName)
  | call (name : QualifiedName) (gap : Gap) (arguments : Text)
      (balanced : parens.Balanced arguments)

namespace Segment.Written

def segment : Written → Segment
  | access name => .access name.text
  | call name _ _ _ => .call name.text

def text : Written → Text
  | access name => name.text
  | call name gap arguments _ => name.text ++ gap.text ++ ('(' :: arguments ++ [')'])

def folded : Written → Text
  | access name => name.text
  | call name gap _ _ => name.text ++ gap.text ++ "()".toList

end Segment.Written

namespace Chain

structure Link where
  written : Segment.Written
  before : Gap
  after : Gap

namespace Link

def segment (link : Link) : Segment := link.written.segment

def text (link : Link) : Text := link.written.text ++ link.before.text ++ '.' :: link.after.text

def folded (link : Link) : Text :=
  link.written.folded ++ link.before.text ++ '.' :: link.after.text

end Link

/-- A name that follows the text does not begin in it. -/
structure NameBorder (before : Text) : Prop where
  word : before.getLast?.any isNameChar = false
  joined : ¬ colons <:+ before

/-- A chain that follows the text does not begin in it. -/
structure Detached (context : Text) : Prop extends NameBorder context where
  dot : (Text.trimEnd context).getLast? ≠ some '.'

-- Names. Read backwards, a part of a name is taken as a whole, whatever stands before it.

def IsNamePart (text : Text) : Prop :=
  ∀ before : Text, takeName (text.reverse ++ before) =
    (text.reverse ++ (takeName before).1, (takeName before).2)

theorem takeName_char (c : Char) (rest : Text) (name : isNameChar c = true) :
    takeName (c :: rest) = (c :: (takeName rest).1, (takeName rest).2) := by
  have other : c ≠ ':' := kept_ne isNameChar c ':' name rfl
  rw [takeName.eq_3 c rest fun _ same _ => other same, if_pos name]

theorem takeName_border (before : Text) (border : NameBorder before) :
    takeName before.reverse = ([], before.reverse) := by
  have word := border.word
  have joined := border.joined
  rw [← List.head?_reverse] at word
  rw [← List.reverse_prefix] at joined
  cases shape : before.reverse with
  | nil => rfl
  | cons first rest =>
      rw [shape] at word joined
      have apart : ∀ later, first = ':' → rest = ':' :: later → False := by
        rintro later rfl rfl
        exact joined ⟨later, rfl⟩
      have other : isNameChar first = false := word
      rw [takeName.eq_3 first rest apart, if_neg (by simp [other])]

theorem namePart_append (left right : Text) (first : IsNamePart left) (second : IsNamePart right) :
    IsNamePart (left ++ right) := by
  intro before
  simp only [List.reverse_append, List.append_assoc]
  rw [second, first]

theorem namePart_colons : IsNamePart colons := fun _ => rfl

theorem namePart_run (text : Text) (run : ∀ c ∈ text, isNameChar c = true) : IsNamePart text := by
  induction text with
  | nil => exact fun _ => rfl
  | cons first rest ih =>
      have tail := ih fun c member => run c (List.mem_cons_of_mem first member)
      intro before
      simp only [List.reverse_cons, List.append_assoc, List.singleton_append]
      rw [tail, takeName_char first before (run first List.mem_cons_self)]

/-- A text that is read backwards as part of a name. -/
structure InName (text : Text) : Prop where
  chars : ∀ c ∈ text, isNameChar c = true ∨ c = ':'
  part : IsNamePart text

theorem InName.append {left right : Text} (first : InName left) (second : InName right) :
    InName (left ++ right) where
  chars c member := (List.mem_append.mp member).elim (first.chars c) (second.chars c)
  part := namePart_append left right first.part second.part

theorem inName_nil : InName [] where
  chars := by simp
  part _ := rfl

theorem inName_colons : InName colons where
  chars := by decide
  part := namePart_colons

theorem inName_identifier (word : Text) (identifier : Text.isIdentifier word = true) : InName word where
  chars c member := .inl ((Text.identifier_chars word identifier).2 c member)
  part := namePart_run word (Text.identifier_chars word identifier).2

structure IsName (text : Text) : Prop where
  some_char : text ≠ []
  chars : ∀ c ∈ text, isNameChar c = true ∨ c = ':'
  part : IsNamePart text

namespace IsName

variable {text : Text} (isName : IsName text)
include isName

theorem takeName (before : Text) (border : NameBorder before) :
    takeName (text.reverse ++ before.reverse) = (text.reverse, before.reverse) := by
  rw [isName.part, takeName_border before border, List.append_nil]

theorem last_char (rest : Text) :
    ∃ last later, text.reverse ++ rest = last :: later ∧ (isNameChar last = true ∨ last = ':') := by
  obtain ⟨last, later, shape⟩ :=
    List.exists_cons_of_ne_nil (mt List.reverse_eq_nil_iff.mp isName.some_char)
  have member : last ∈ text := List.mem_reverse.mp (shape ▸ List.mem_cons_self)
  exact ⟨last, later ++ rest, by rw [shape, List.cons_append], isName.chars last member⟩

theorem stops (rest : Text) : Stops isBlank (text.reverse ++ rest) := by
  obtain ⟨last, later, shape, char⟩ := isName.last_char rest
  rw [shape, stops_cons]
  rcases char with name | rfl
  · exact name_not_blank last name
  · decide

theorem not_call (rest before : Text) : text.reverse ++ rest ≠ ')' :: before := by
  obtain ⟨last, later, shape, char⟩ := isName.last_char rest
  rw [shape]
  rintro ⟨⟩
  exact absurd char (by decide)

end IsName

end Chain

/-- What holds of the parts and the separator, and of a text made of two such texts, holds of the
parts joined by the separator. -/
theorem intercalate_closed (holds : Text → Prop) (separator : Text) (parts : List Text)
    (empty : holds []) (append : ∀ left right, holds left → holds right → holds (left ++ right))
    (between : holds separator) (each : ∀ part ∈ parts, holds part) :
    holds (separator.intercalate parts) := by
  induction parts with
  | nil => exact empty
  | cons part rest ih =>
      have first := each part List.mem_cons_self
      have later := ih fun other member => each other (List.mem_cons_of_mem part member)
      cases rest with
      | nil => rwa [List.intercalate_singleton]
      | cons next rest =>
          rw [List.intercalate_cons_cons]
          exact append _ _ (append _ _ first between) later

theorem Chain.inName_joined (words : List Text)
    (identifiers : ∀ word ∈ words, Text.isIdentifier word = true) :
    Chain.InName (colons.intercalate words) :=
  intercalate_closed Chain.InName colons words Chain.inName_nil (fun _ _ => Chain.InName.append)
    Chain.inName_colons fun word member => Chain.inName_identifier word (identifiers word member)

namespace QualifiedName

variable (name : QualifiedName)

theorem inName : Chain.InName name.text := by
  have words := Chain.inName_joined name.words name.identifiers
  rw [text]
  cases name.rooted with
  | false => exact Chain.inName_nil.append words
  | true => exact Chain.inName_colons.append words

theorem text_named : name.text.any isNameChar = true := by
  obtain ⟨word, rest, shape⟩ := List.exists_cons_of_ne_nil name.named
  have member : word ∈ name.words := by simp [shape]
  have identifier := name.identifiers word member
  cases word with
  | nil => simp [Text.isIdentifier] at identifier
  | cons first word =>
      have listed : first ∈ name.text := by
        rw [text, shape]
        cases rest with
        | nil => simp
        | cons next rest => simp [List.intercalate_cons_cons]
      exact List.any_eq_true.mpr ⟨first, listed, (Text.identifier_chars _ identifier).2 first List.mem_cons_self⟩

theorem isName : Chain.IsName name.text := by
  refine ⟨?_, name.inName.chars, name.inName.part⟩
  intro empty
  have named := name.text_named
  simp [empty] at named

end QualifiedName

theorem gap_folds (gap : Gap) : Folds parens gap.text gap.text :=
  Folds.plain fun c member => paren_blank_plain c (gap.blank c member)

theorem name_folds (name : QualifiedName) : Folds parens name.text name.text :=
  Folds.plain fun c member => name_text_plain c (name.inName.chars c member)

namespace Segment.Written

theorem folds (written : Written) : Folds parens written.text written.folded := by
  cases written with
  | access name => exact name_folds name
  | call name gap arguments balanced =>
      have group := Folds.group parens_distinct
        (folds_balanced parens parens_distinct arguments balanced)
      exact ((name_folds name).append (gap_folds gap)).append group

theorem segment_named (written : Written) : written.segment.isNamed = true := by
  cases written with
  | access name => exact name.text_named
  | call name gap arguments balanced => exact name.text_named

end Segment.Written

namespace Chain

theorem Link.folds (link : Link) : Folds parens link.text link.folded := by
  have dot : Folds parens ['.'] ['.'] := Folds.plain (by decide)
  exact (link.written.folds.append (gap_folds link.before)).append (dot.append (gap_folds link.after))

theorem links_fold (links : List Link) :
    Folds parens (links.flatMap Link.text) (links.flatMap Link.folded) := by
  induction links with
  | nil => exact Folds.nil
  | cons link rest ih => exact link.folds.append ih

-- Segments, read backwards from the end of a folded text.

theorem border_of_last (before : Text)
    (last : ∀ c, before.getLast? = some c → isNameChar c = false ∧ c ≠ ':') :
    NameBorder before := by
  refine ⟨?_, ?_⟩
  · cases atEnd : before.getLast? with
    | none => rfl
    | some c => exact (last c atEnd).1
  rintro ⟨lead, rfl⟩
  have atEnd : (lead ++ colons).getLast? = some ':' := by
    rw [List.getLast?_append]
    rfl
  exact (last ':' atEnd).2 rfl

theorem border_dot (before : Text) (gap : Gap) : NameBorder (before ++ '.' :: gap.text) := by
  apply border_of_last
  intro c atEnd
  have member : c ∈ '.' :: gap.text := by
    cases trail : ('.' :: gap.text).getLast? with
    | none => simp at trail
    | some last =>
        rw [List.getLast?_append, trail] at atEnd
        cases atEnd
        exact List.mem_of_getLast? trail
  rcases List.mem_cons.mp member with rfl | blank
  · decide
  · have isBlank := gap.blank c blank
    exact ⟨blank_not_name c isBlank, kept_ne _ c ':' isBlank rfl⟩

theorem border_links (context : Text) (border : NameBorder context) (links : List Link) :
    NameBorder (context ++ links.flatMap Link.folded) := by
  induction links using List.reverseRecOn with
  | nil => simpa using border
  | append_singleton links link _ =>
      have shape : context ++ (links ++ [link]).flatMap Link.folded =
          (context ++ links.flatMap Link.folded ++ link.written.folded ++ link.before.text) ++
            '.' :: link.after.text := by
        simp [Link.folded]
      rw [shape]
      exact border_dot _ link.after

theorem takeSegment_access (before name : Text) (trail : Gap) (border : NameBorder before)
    (isName : IsName name) :
    takeSegment (before ++ name ++ trail.text).reverse = (.access name, before.reverse) := by
  have trimmed : (before ++ name ++ trail.text).reverse.dropWhile isBlank =
      name.reverse ++ before.reverse := by
    rw [List.reverse_append, List.reverse_append]
    exact Text.dropWhile_run isBlank _ _
      (fun c member => trail.blank c (List.mem_reverse.mp member)) (isName.stops before.reverse)
  rw [takeSegment, trimmed]
  split
  · next rest shape => exact absurd shape (isName.not_call before.reverse ('(' :: rest))
  · simp [isName.takeName before border]

theorem takeSegment_call (before name : Text) (gap trail : Gap) (border : NameBorder before)
    (isName : IsName name) :
    takeSegment (before ++ (name ++ gap.text ++ "()".toList) ++ trail.text).reverse =
      (.call name, before.reverse) := by
  have trimmed : (before ++ (name ++ gap.text ++ "()".toList) ++ trail.text).reverse.dropWhile
      isBlank = ')' :: '(' :: (gap.text.reverse ++ (name.reverse ++ before.reverse)) := by
    rw [List.reverse_append, Text.dropWhile_run isBlank _ _
      (fun c member => trail.blank c (List.mem_reverse.mp member))]
    · simp
    · rw [List.reverse_append, List.reverse_append]
      exact (stops_cons isBlank ')' _).mpr (by decide)
  have inner : (gap.text.reverse ++ (name.reverse ++ before.reverse)).dropWhile isBlank =
      name.reverse ++ before.reverse :=
    Text.dropWhile_run isBlank _ _ (fun c member => gap.blank c (List.mem_reverse.mp member))
      (isName.stops before.reverse)
  rw [takeSegment, trimmed]
  simp [inner, isName.takeName before border]

theorem takeSegment_written (before : Text) (written : Segment.Written) (trail : Gap)
    (border : NameBorder before) :
    takeSegment (before ++ written.folded ++ trail.text).reverse =
      (written.segment, before.reverse) := by
  cases written with
  | access name =>
      exact takeSegment_access before name.text trail border name.isName
  | call name gap arguments balanced =>
      exact takeSegment_call before name.text gap trail border name.isName

theorem takeSegment_typed (before typed rest : Text) (border : NameBorder before)
    (word : ∀ c ∈ typed, isNameChar c = true)
    (dot : before.reverse.dropWhile isBlank = '.' :: rest) :
    (takeSegment (before ++ typed).reverse).2.dropWhile isBlank = '.' :: rest := by
  cases typed with
  | nil =>
      rw [List.append_nil, takeSegment, dot]
      exact List.dropWhile_cons_of_neg (by decide)
  | cons first typed =>
      have isName : IsName (first :: typed) :=
        ⟨by simp, fun c member => Or.inl (word c member), namePart_run _ word⟩
      have access := takeSegment_access before (first :: typed) Gap.none border isName
      rw [Gap.none, List.append_nil] at access
      rw [access, dot]

theorem segments_dot (reversed before : Text)
    (dot : (takeSegment reversed).2.dropWhile isBlank = '.' :: before) :
    segments reversed = (takeSegment reversed).1 :: segments before := by
  rw [segments]
  split
  · next shape =>
      rw [dot] at shape
      cases shape
      rfl
  · next other => exact absurd dot (other before)

theorem segments_end (reversed : Text)
    (noDot : ((takeSegment reversed).2.dropWhile isBlank).head? ≠ some '.') :
    segments reversed = [(takeSegment reversed).1] := by
  rw [segments]
  split
  · next shape => simp [shape] at noDot
  · rfl

theorem links_dot (context : Text) (links : List Link) (link : Link) :
    (context ++ (links ++ [link]).flatMap Link.folded).reverse.dropWhile isBlank =
      '.' :: (context ++ links.flatMap Link.folded ++ link.written.folded ++
        link.before.text).reverse := by
  have shape : (context ++ (links ++ [link]).flatMap Link.folded).reverse =
      link.after.text.reverse ++ '.' :: (context ++ links.flatMap Link.folded ++
        link.written.folded ++ link.before.text).reverse := by
    simp [Link.folded]
  rw [shape]
  exact Text.dropWhile_run isBlank _ _
    (fun c member => link.after.blank c (List.mem_reverse.mp member))
    ((stops_cons isBlank '.' _).mpr rfl)

-- Reading goes from the last link to the first, so the induction takes links off the end. It is
-- about any place from which only blanks are left to the links: behind a typed word or a name.
theorem segments_links (context : Text) (detached : Detached context) (links : List Link)
    (reversed : Text)
    (behind : (takeSegment reversed).2.dropWhile isBlank =
      (context ++ links.flatMap Link.folded).reverse.dropWhile isBlank) :
    segments reversed = (takeSegment reversed).1 :: (links.map Link.segment).reverse := by
  induction links using List.reverseRecOn generalizing reversed with
  | nil =>
      apply segments_end
      have noDot := detached.dot
      rw [Text.trimEnd, Text.dropEndWhile, List.getLast?_reverse] at noDot
      simpa [behind] using noDot
  | append_singleton links link ih =>
      have border := border_links context detached.toNameBorder links
      have next := takeSegment_written (context ++ links.flatMap Link.folded) link.written
        link.before border
      rw [segments_dot reversed _ (behind.trans (links_dot context links link)),
        ih _ (by rw [next]), next]
      simp [Link.segment]

theorem detached_folded (context : Text) (detached : Detached context) :
    Detached (foldedText parens context) := by
  have colon_plain : ∀ c, (c == ':') = true → parens.IsPlain c := by
    intro c same
    rw [beq_iff_eq] at same
    exact name_text_plain c (Or.inr same)
  refine ⟨⟨?_, ?_⟩, ?_⟩
  · rw [foldedText_last]
    exact detached.word
  · rintro ⟨lead, shape⟩
    apply detached.joined
    have run := (foldedText_ending parens (· == ':') colon_plain context).1
    rw [← shape, List.reverse_append] at run
    have atEnd : colons.reverse <+: context.reverse.takeWhile (· == ':') :=
      ⟨lead.reverse.takeWhile (· == ':'), run⟩
    exact List.reverse_prefix.mp (atEnd.trans (List.takeWhile_prefix _))
  · have same := (foldedText_ending parens isBlank paren_blank_plain context).2
    have noDot := detached.dot
    rw [Text.trimEnd, Text.dropEndWhile, List.getLast?_reverse] at noDot ⊢
    rwa [same]

theorem foldedText_links (context rest : Text) (links : List Link) (plain : Folds parens rest rest) :
    foldedText parens (context ++ links.flatMap Link.text ++ rest) =
      foldedText parens context ++ links.flatMap Link.folded ++ rest := by
  rw [List.append_assoc, foldedText_append ((links_fold links).append plain), List.append_assoc]

theorem named?_links (links : List Link) (earlier : List Segment)
    (named : earlier.all Segment.isNamed = true) :
    named? (earlier ++ (links.map Link.segment).reverse) =
      some (links.map Link.segment ++ earlier.reverse) := by
  have all : (earlier ++ (links.map Link.segment).reverse).all Segment.isNamed = true := by
    simp only [List.all_append, Bool.and_eq_true, named, true_and, List.all_reverse, List.all_map,
      List.all_eq_true]
    exact fun link _ => link.written.segment_named
  rw [named?, if_pos all]
  simp

/-- The chain before a word being typed is the one that was written. -/
theorem written_chain_read (context : Text) (detached : Detached context) (links : List Link)
    (some_link : links ≠ []) (typed : Text) (word : ∀ c ∈ typed, isNameChar c = true) :
    ofText (context ++ links.flatMap Link.text ++ typed) = links.map Link.segment := by
  let before := foldedText parens context ++ links.flatMap Link.folded
  have folded : foldedText parens (context ++ links.flatMap Link.text ++ typed) =
      before ++ typed :=
    foldedText_links context typed links
      (Folds.plain fun c member => name_plain c (word c member))
  have outer := detached_folded context detached
  have behind : (takeSegment (before ++ typed).reverse).2.dropWhile isBlank =
      before.reverse.dropWhile isBlank := by
    have border := border_links (foldedText parens context) outer.toNameBorder links
    obtain none_link | ⟨earlier, last, shape⟩ := List.eq_nil_or_concat links
    · exact absurd none_link some_link
    · have dot := links_dot (foldedText parens context) earlier last
      rw [← List.concat_eq_append, ← shape] at dot
      rw [takeSegment_typed before typed _ border word dot, dot]
  rw [ofText, folded, segments_links _ outer links _ behind, List.tail_cons]
  have named := named?_links links [] rfl
  rw [List.nil_append] at named
  simp [named]

-- Behind unmatched brackets, with blanks, a rooted name, and a call whose arguments hold a chain.
theorem written_chain_read_in_call :
    ofText "f(x)) + g(a, ::Rules::get ( b.c(1, 2) ) . blob .na".toList =
      [.call "::Rules::get".toList, .access "blob".toList] :=
  let get : QualifiedName := { rooted := true, words := ["Rules".toList, "get".toList] }
  let blob : QualifiedName := { rooted := false, words := ["blob".toList] }
  written_chain_read "f(x)) + g(a, ".toList ⟨⟨by decide, by decide⟩, by decide⟩
    [⟨.call get .one " b.c(1, 2) ".toList (by decide), .one, .one⟩, ⟨.access blob, .one, .none⟩]
    (by simp) "na".toList (by decide)

end Chain

namespace OpenCall

theorem arguments_fold (arguments : List Text)
    (balanced : ∀ argument ∈ arguments, parens.Balanced argument) :
    Folds parens ([','].intercalate arguments)
      ([','].intercalate (arguments.map parens.emptied)) := by
  induction arguments with
  | nil => exact Folds.nil
  | cons argument rest ih =>
      have first : Folds parens argument (parens.emptied argument) :=
        folds_balanced parens parens_distinct argument (balanced argument List.mem_cons_self)
      have later := ih fun other member => balanced other (List.mem_cons_of_mem argument member)
      cases rest with
      | nil => simpa using first
      | cons next rest =>
          have comma : Folds parens [','] [','] := Folds.plain (by decide)
          simp only [List.map_cons, List.intercalate_cons_cons] at later ⊢
          exact (first.append comma).append later

/-- Behind an opening bracket the arguments make up the innermost layer, and the layers below it
show the text in front of the bracket. -/
theorem fold_open (before arguments emptied : Text) (folds : Folds parens arguments emptied) :
    ∃ base outer, fold parens (before ++ '(' :: arguments) = ⟨base, emptied.reverse :: outer⟩ ∧
      Folded.text parens ⟨base, outer⟩ = foldedText parens before := by
  refine ⟨(fold parens before).base, (fold parens before).layers, ?_, rfl⟩
  have opened : Folded.step parens (fold parens before) '(' =
      ⟨(fold parens before).base, [] :: (fold parens before).layers⟩ :=
    Folded.step_opening parens (fold parens before)
  rw [fold, List.foldl_append, List.foldl_cons]
  change (arguments.foldl (Folded.step parens) (Folded.step parens (fold parens before) '(')) = _
  rw [opened, folds, Folded.append_layer, List.append_nil]

/-- The innermost open call is the one that was written, with as many arguments as commas stand
outside of the calls among them. -/
theorem written_call_read (context : Text) (detached : Chain.Detached context)
    (links : List Chain.Link) (name : QualifiedName) (gap : Gap) (arguments : List Text)
    (some_argument : arguments ≠ [])
    (balanced : ∀ argument ∈ arguments, parens.Balanced argument)
    (one : ∀ argument ∈ arguments, ',' ∉ parens.emptied argument) :
    ∃ call, ofText? (context ++ links.flatMap Chain.Link.text ++ (name.text ++ gap.text) ++
        '(' :: [','].intercalate arguments) = some call ∧
      call.chain = links.map Chain.Link.segment ++ [.call name.text] ∧
      call.arguments = arguments.map (fun argument => Text.trim (parens.emptied argument)) ∧
      call.active = arguments.length - 1 := by
  let before := foldedText parens context ++ links.flatMap Chain.Link.folded
  obtain ⟨base, outer, folded, receiver⟩ := fold_open
    (context ++ links.flatMap Chain.Link.text ++ (name.text ++ gap.text)) _ _
    (arguments_fold arguments balanced)
  have plain : Folds parens (name.text ++ gap.text) (name.text ++ gap.text) :=
    (name_folds name).append (gap_folds gap)
  have detachedFolded := Chain.detached_folded context detached
  have access : Chain.takeSegment (before ++ (name.text ++ gap.text)).reverse =
      (.access name.text, before.reverse) := by
    rw [← List.append_assoc]
    exact Chain.takeSegment_access before name.text gap
      (Chain.border_links _ detachedFolded.toNameBorder links) name.isName
  have read : Chain.segments (Folded.text parens ⟨base, outer⟩).reverse =
      .access name.text :: (links.map Chain.Link.segment).reverse := by
    rw [receiver, Chain.foldedText_links context _ links plain,
      Chain.segments_links _ detachedFolded links _ (by rw [access]), access]
  have named := Chain.named?_links links [.call name.text]
    (by rw [List.all_cons, List.all_nil, Bool.and_true]; exact name.text_named)
  have split : ([','].intercalate (arguments.map parens.emptied)).splitOn ',' =
      arguments.map parens.emptied := by
    apply List.splitOn_intercalate
    · intro emptied member
      obtain ⟨argument, present, rfl⟩ := List.mem_map.mp member
      exact one argument present
    · simpa using some_argument
  have found : ofText? (context ++ links.flatMap Chain.Link.text ++ (name.text ++ gap.text) ++
      '(' :: [','].intercalate arguments) =
      some ⟨links.map Chain.Link.segment ++ [.call name.text],
        arguments.map fun argument => Text.trim (parens.emptied argument)⟩ := by
    rw [ofText?, folded]
    simp only [read, Segment.asCall, Segment.name]
    rw [List.singleton_append] at named
    rw [named, List.reverse_reverse, split]
    simp
  exact ⟨_, found, rfl, rfl, by simp [active]⟩

theorem written_call_read_in_call :
    ∃ call, ofText? "f(x, this.get(1).hit (a(1, 2) , , (3)".toList = some call ∧
      call.chain = [.access "this".toList, .call "get".toList, .call "hit".toList] ∧
      call.arguments = ["a()".toList, [], "()".toList] ∧ call.active = 2 :=
  let this : QualifiedName := { rooted := false, words := ["this".toList] }
  let get : QualifiedName := { rooted := false, words := ["get".toList] }
  let hit : QualifiedName := { rooted := false, words := ["hit".toList] }
  written_call_read "f(x, ".toList ⟨⟨by decide, by decide⟩, by decide⟩
    [⟨.access this, .none, .none⟩, ⟨.call get .none ['1'] (by decide), .none, .none⟩] hit .one
    ["a(1, 2) ".toList, [' '], " (3)".toList] (by decide) (by decide) (by decide)

end OpenCall

end ScriptSense
