import Mathlib.Data.List.Infix
import ScriptSense.Proofs.Attached
import ScriptSense.Proofs.Barrier
import ScriptSense.Proofs.Literal
import ScriptSense.Proofs.Nesting
import ScriptSense.Proofs.Opaque

/-!
Include directives and string literals. A path is a string, so directives are looked for in a text that
still has its strings, and neither the search nor the folding of blocks tells a string from code. What a
literal contains is kept from the search only if it holds no directive and no brace without its partner.
-/
namespace ScriptSense

def directiveBody? (text : Text) : Option Text :=
  (Text.after? "#include".toList text).bind (Text.afterSome? isBlank)

theorem directiveBody?_suffix (text body : Text) (read : directiveBody? text = some body) :
    body <:+ text := by
  obtain ⟨rest, word, blanks⟩ := Option.bind_eq_some_iff.mp read
  have split := (Text.afterSome?_some isBlank rest body blanks).1
  exact List.IsSuffix.trans ⟨_, split.symm⟩ ⟨_, (Text.after?_some _ text rest word).symm⟩

def includedPath? (text : Text) : Option (Text × Text) :=
  (quotedPath? '"' text).or (quotedPath? '\'' text)

theorem includeRule_body (before : Option Char) (text : Text) :
    includeRule before text = (directiveBody? text).bind includedPath? := by
  rw [includeRule, directiveBody?]
  cases Text.after? "#include".toList text with
  | none => rfl
  | some rest => rfl

theorem quote_apart (quote : Quote) :
    isBlank quote.char = false ∧ quote.char ∉ "#include".toList := by
  cases quote with
  | double => decide
  | single => decide

theorem directiveBody?_stop (quote : Quote) (lead rest : Text) :
    directiveBody? (lead ++ quote.char :: rest) =
      (directiveBody? lead).map (· ++ quote.char :: rest) := by
  obtain ⟨notBlank, notInWord⟩ := quote_apart quote
  rw [directiveBody?, Text.after?_stop _ _ notInWord, directiveBody?]
  cases Text.after? "#include".toList lead with
  | none => rfl
  | some behind => exact Text.afterSome?_stop isBlank quote.char notBlank behind rest

def inPath (quote c : Char) : Bool := c != quote && c != '\n'

theorem behind?_cons (c first : Char) (text : Text) :
    behind? c (first :: text) = if c = first then some text else none :=
  rfl

/-- A path ends at the first quote, unless the line ends before it. -/
theorem quotedPath?_run (quote : Char) (path : Text) (stop : Char) (rest : Text)
    (inside : ∀ c ∈ path, inPath quote c = true) (ends : inPath quote stop = false) :
    quotedPath? quote (quote :: (path ++ stop :: rest)) =
      if quote = stop then some (path, rest) else none := by
  have split : (path ++ stop :: rest).span (inPath quote) = (path, stop :: rest) :=
    Text.span_run _ path _ inside ((stops_cons _ _ _).mpr ends)
  have opened : quotedPath? quote (quote :: (path ++ stop :: rest)) =
      let inside := (path ++ stop :: rest).span (inPath quote)
      (behind? quote inside.2).bind fun rest => some (inside.1, rest) := by
    rw [quotedPath?, behind?_cons, if_pos rfl]
    rfl
  rw [opened, split]
  dsimp only
  rw [behind?_cons]
  split
  · rfl
  · rfl

theorem quotedPath?_other (quote first : Char) (text : Text) (other : quote ≠ first) :
    quotedPath? quote (first :: text) = none := by
  rw [quotedPath?, behind?_cons, if_neg other]
  rfl

theorem includedPath?_quote (quote : Quote) (text : Text) :
    includedPath? (quote.char :: text) = quotedPath? quote.char (quote.char :: text) := by
  cases quote with
  | double =>
      have single := quotedPath?_other '\'' '"' text (by decide)
      rw [Quote.char, includedPath?, single, Option.or_none]
  | single =>
      have double := quotedPath?_other '"' '\'' text (by decide)
      rw [Quote.char, includedPath?, double, Option.none_or]

theorem includedPath?_other (first : Char) (text : Text) (other : ∀ quote : Quote, quote.char ≠ first) :
    includedPath? (first :: text) = none := by
  rw [includedPath?, quotedPath?_other '"' first text (other .double),
    quotedPath?_other '\'' first text (other .single)]
  rfl

/-- The part of a directive behind its blanks is not complete: nothing of the path is there, or the
path is in the other kind of quotes and goes on. -/
def opensPath (quote : Quote) : Text → Bool
  | [] => true
  | first :: path => first == quote.other.char && path.all (inPath first)

def Begun (quote : Quote) (text : Text) : Prop :=
  ∃ tail ∈ text.tails, (directiveBody? tail).any (opensPath quote) = true

instance (quote : Quote) (text : Text) : Decidable (Begun quote text) :=
  inferInstanceAs (Decidable (∃ tail ∈ text.tails, (directiveBody? tail).any (opensPath quote) = true))

theorem quotedPath?_settled (opening quote : Quote) (path : Text)
    (closes : opening = quote ∨ path.all (inPath opening.char) = false) :
    (∀ rest, quotedPath? opening.char (opening.char :: (path ++ quote.char :: rest)) = none) ∨
      ∃ found left, left <:+ path ++ [quote.char] ∧ ∀ rest,
        quotedPath? opening.char (opening.char :: (path ++ quote.char :: rest)) =
          some (found, left ++ rest) := by
  by_cases whole : path.all (inPath opening.char) = true
  · obtain rfl : opening = quote := by
      rcases closes with same | broken
      · exact same
      · rw [whole] at broken
        cases broken
    have ends : inPath opening.char opening.char = false := by simp [inPath]
    refine Or.inr ⟨path, [], List.nil_suffix, fun rest => ?_⟩
    rw [quotedPath?_run _ path _ rest (List.all_eq_true.mp whole) ends, if_pos rfl]
    rfl
  · -- The path ends in front of the quote, at the first character that cannot stand in it.
    obtain ⟨run, stop, more, rfl, inside, ends⟩ :=
      Text.split_refused _ path (eq_false_of_ne_true whole)
    have read (rest : Text) := quotedPath?_run opening.char run stop (more ++ quote.char :: rest) inside ends
    simp only [List.append_assoc, List.cons_append, read]
    split
    · exact Or.inr ⟨run, more ++ [quote.char], ⟨run ++ [stop], by simp⟩, fun rest => by simp⟩
    · exact Or.inl fun _ => rfl

theorem includedPath?_settled (quote : Quote) (body : Text) (ended : opensPath quote body = false) :
    (∀ rest, includedPath? (body ++ quote.char :: rest) = none) ∨
      ∃ found left, left <:+ body ++ [quote.char] ∧
        ∀ rest, includedPath? (body ++ quote.char :: rest) = some (found, left ++ rest) := by
  cases body with
  | nil => cases ended
  | cons first path =>
      by_cases quoted : ∃ opening : Quote, opening.char = first
      · obtain ⟨opening, rfl⟩ := quoted
        have closes : opening = quote ∨ path.all (inPath opening.char) = false := by
          by_cases same : opening = quote
          · exact Or.inl same
          · have other : opening = quote.other := by
              cases opening <;> cases quote <;> first | rfl | exact absurd rfl same
            rw [opensPath, other, beq_self_eq_true, Bool.true_and] at ended
            exact Or.inr (other ▸ ended)
        simp only [List.cons_append, includedPath?_quote]
        rcases quotedPath?_settled opening quote path closes with refused | ⟨found, left, suffix, accepted⟩
        · exact Or.inl refused
        · exact Or.inr ⟨found, left, suffix.trans (List.suffix_cons _ _), accepted⟩
      · have other : ∀ opening : Quote, opening.char ≠ first := not_exists.mp quoted
        exact Or.inl fun rest => includedPath?_other first _ other

theorem includeRule_settled (quote : Quote) (lead : Text) (notBegun : ¬Begun quote lead) :
    Settled includeRule quote.char lead := by
  intro tail inLead before
  simp only [includeRule_body, directiveBody?_stop]
  cases read : directiveBody? tail with
  | none => exact Or.inl fun _ => rfl
  | some body =>
      have ended : opensPath quote body = false := by
        apply eq_false_of_ne_true
        intro opened
        exact notBegun ⟨tail, (List.mem_tails tail lead).mpr inLead, by rw [read]; exact opened⟩
      simp only [Option.map_some, Option.bind_some]
      rcases includedPath?_settled quote body ended with refused | ⟨found, left, suffix, accepted⟩
      · exact Or.inl refused
      · have inTail : body ++ [quote.char] <:+ tail ++ [quote.char] := by
          obtain ⟨taken, rfl⟩ := directiveBody?_suffix tail body read
          exact ⟨taken, (List.append_assoc _ _ _).symm⟩
        exact Or.inr ⟨found, left, suffix.trans inTail, accepted⟩

def NoDirective (text : Text) : Prop := ∀ tail ∈ text.tails, directiveBody? tail = none

instance (text : Text) : Decidable (NoDirective text) :=
  inferInstanceAs (Decidable (∀ tail ∈ text.tails, directiveBody? tail = none))

theorem findFrom_noDirective (quote : Quote) (text rest : Text) (plain : NoDirective text)
    (before : Option Char) :
    findFrom includeRule 0 before (text ++ quote.char :: rest) =
      findFrom includeRule 0 (some quote.char) rest := by
  have unread (before : Option Char) (tail : Text) (none_here : directiveBody? tail = none) :
      includeRule before (tail ++ quote.char :: rest) = none := by
    rw [includeRule_body, directiveBody?_stop, none_here]
    rfl
  induction text generalizing before with
  | nil =>
      have here := unread before [] rfl
      rw [List.nil_append] at here
      rw [List.nil_append, findFrom, here]
  | cons first text ih =>
      have here := unread before (first :: text) (plain _ (by simp))
      rw [List.cons_append] at here
      rw [List.cons_append, findFrom, here]
      exact ih (fun tail member => plain tail (by simp [member])) (some first)

def seenInterior (interior : Text) : Text := foldedText braces (attachHandles interior)

/-- The interior of a literal neither holds a directive nor hides or shows one with its braces. -/
structure Inert (interior : Text) : Prop where
  balanced : braces.Balanced interior
  plain : NoDirective (seenInterior interior)

theorem foldedText_literal {before after : List Token} {quote : Quote} {interior : Text}
    (literal : IsLiteral before quote interior after) (balanced : braces.Balanced interior) :
    foldedText braces (stripComments (withLiteral before quote interior after)) =
      ((stripped after).foldl (Folded.step braces)
        ((fold braces (stripped before)).append (literalText quote (seenInterior interior)))).text
          braces := by
  have folds : Folds braces (literalText quote (attachHandles interior))
      (literalText quote (seenInterior interior)) := by
    have mark : ∀ c ∈ [quote.char], braces.IsPlain c := by
      cases quote with
      | double => decide
      | single => decide
    have inside := folds_foldedText braces braces_distinct _ (balanced_attachHandles interior balanced)
    exact (Folds.plain mark).append (inside.append (Folds.plain mark))
  have split : stripComments (withLiteral before quote interior after) =
      stripped before ++ (literalText quote (attachHandles interior) ++ stripped after) := by
    rw [literal.stripComments, literalText_append]
  rw [split, foldedText, fold, List.foldl_append, List.foldl_append, folds]
  rfl

theorem includePaths_inert {before after : List Token} {quote : Quote} {interior other : Text}
    (literal : IsLiteral before quote interior after) (exchanged : IsLiteral before quote other after)
    (inert : Inert interior) (otherInert : Inert other)
    (notBegun : ¬Begun quote (foldedText braces (stripped before))) :
    Script.includePaths (withLiteral before quote other after) =
      Script.includePaths (withLiteral before quote interior after) := by
  have found (text behind : Text) (plain : NoDirective text) :
      findAll includeRule (foldedText braces (stripped before) ++ (literalText quote text ++ behind)) =
        findFrom includeRule 0 none (foldedText braces (stripped before) ++ [quote.char]) ++
          findFrom includeRule 0 (some quote.char) behind := by
    have settled := includeRule_settled quote _ notBegun
    rw [literalText_append, findAll, settled.findFrom_stop _ 0 (Nat.zero_le _),
      findFrom_noDirective quote text behind plain]
  rw [Script.includePaths, Script.includePaths, foldedText_literal literal inert.balanced,
    foldedText_literal exchanged otherInert.balanced]
  rcases foldl_exchange braces braces_distinct (fold braces (stripped before))
    (literalText quote (seenInterior other)) (literalText quote (seenInterior interior))
    (stripped after) with same | ⟨behind, one, two⟩
  · rw [same]
  · rw [one, two, ← foldedText, found _ behind otherInert.plain, found _ behind inert.plain]

def directiveText (quote : Quote) (path : Text) : Text :=
  "#include".toList ++ ' ' :: literalText quote path

theorem includeRule_read (quote : Quote) (path rest : Text)
    (inside : ∀ c ∈ path, inPath quote.char c = true) (before : Option Char) :
    includeRule before (directiveText quote path ++ rest) = some (path, rest) := by
  have body : directiveBody? (directiveText quote path ++ rest) =
      some (quote.char :: (path ++ quote.char :: rest)) := by
    have space : isBlank ' ' = true := by decide
    have notBlank := (quote_apart quote).1
    have split : directiveText quote path ++ rest =
        "#include".toList ++ (' ' :: quote.char :: (path ++ quote.char :: rest)) :=
      (List.append_assoc "#include".toList (' ' :: literalText quote path) rest).trans
        (congrArg ("#include".toList ++ ' ' :: ·) (literalText_append quote path rest))
    rw [split, directiveBody?, Text.after?_append, Option.bind_some, Text.afterSome?, if_pos space,
      List.dropWhile_cons_of_neg (by simp [notBlank])]
  have ends : inPath quote.char quote.char = false := by simp [inPath]
  rw [includeRule_body, body, Option.bind_some, includedPath?_quote,
    quotedPath?_run _ path _ rest inside ends, if_pos rfl]

/-- A blank stands in front of what follows `#include`. -/
theorem directiveBody?_blank (text body : Text) (read : directiveBody? text = some body) :
    ∃ front blank, isBlank blank = true ∧ text = front ++ blank :: body := by
  obtain ⟨rest, word, blanks⟩ := Option.bind_eq_some_iff.mp read
  obtain ⟨split, some_blank⟩ := Text.afterSome?_some isBlank rest body blanks
  obtain ⟨front, last, shape⟩ := (List.eq_nil_or_concat' _).resolve_left some_blank
  refine ⟨"#include".toList ++ front, last, List.mem_takeWhile_imp (l := rest) (by simp [shape]), ?_⟩
  rw [Text.after?_some _ text rest word, split, shape]
  simp

/-- No directive goes on behind a line that begins with a character of code. -/
theorem notBegun_line (quote : Quote) (lead : Text) : ¬Begun quote (lead ++ ['\n', ';']) := by
  rintro ⟨tail, inLead, opened⟩
  obtain ⟨before, split⟩ := (List.mem_tails tail _).mp inLead
  cases read : directiveBody? tail with
  | none => simp [read] at opened
  | some body =>
      rw [read, Option.any_some] at opened
      obtain ⟨front, blank, some_blank, shape⟩ := directiveBody?_blank tail body read
      have inText : body <:+ lead ++ ['\n', ';'] :=
        (directiveBody?_suffix tail body read).trans ((List.mem_tails tail _).mp inLead)
      have unquoted : ∀ c ∈ ['\n', ';'], c ≠ quote.other.char := by
        cases quote with
        | double => decide
        | single => decide
      have unopened (c : Char) (rest : Text) (line : c ∈ ['\n', ';']) :
          opensPath quote (c :: rest) = false := by
        rw [opensPath, beq_eq_false_iff_ne.mpr (unquoted c line), Bool.false_and]
      rcases List.suffix_or_suffix_of_suffix inText (List.suffix_append lead ['\n', ';']) with
        short | ⟨taken, rfl⟩
      · match body, short with
        | [], _ =>
            have ends := congrArg List.getLast? split
            rw [shape, ← List.append_assoc, List.getLast?_concat, List.getLast?_append] at ends
            rw [Option.some.inj ends] at some_blank
            exact absurd some_blank (by decide)
        | c :: rest, inLine =>
            rw [unopened c rest (inLine.subset List.mem_cons_self)] at opened
            cases opened
      · cases taken with
        | nil =>
            rw [List.nil_append, unopened _ _ (by decide)] at opened
            cases opened
        | cons first path =>
            simp [opensPath, inPath] at opened

theorem directive_found (quote : Quote) (lead path rest : Text)
    (inside : ∀ c ∈ path, inPath quote.char c = true) :
    path ∈ findAll includeRule
      ((lead ++ ['\n', ';']) ++ quote.char :: (directiveText quote path ++ rest)) := by
  have settled := includeRule_settled quote _ (notBegun_line quote lead)
  have read := includeRule_read quote path rest inside (some quote.char)
  rw [findAll, settled.findFrom_stop _ 0 (Nat.zero_le _)]
  apply List.mem_append_right
  cases shape : directiveText quote path ++ rest with
  | nil =>
      rw [shape, includeRule_body] at read
      cases read
  | cons first more =>
      rw [shape] at read
      rw [findFrom, read]
      exact List.mem_cons_self

def directiveLine (quote : Quote) (path : Text) : Text :=
  '\n' :: ';' :: quote.char :: directiveText quote path

theorem directiveLine_chars (quote : Quote) (path : Text) (name : ∀ c ∈ path, c = 'x') (c : Char)
    (member : c ∈ directiveLine quote path) : c ∈ quote.char :: "\n;#include x".toList := by
  have fixed : ∀ c ∈ "\n;#include x".toList, c ∈ quote.char :: "\n;#include x".toList :=
    fun c => List.mem_cons_of_mem quote.char
  have word : ∀ c ∈ "#include".toList, c ∈ "\n;#include x".toList := by decide
  have quoted : quote.char ∈ quote.char :: "\n;#include x".toList := List.mem_cons_self
  have literal : ∀ c ∈ literalText quote path, c ∈ quote.char :: "\n;#include x".toList := by
    refine List.forall_mem_cons.mpr ⟨quoted, fun c inside => ?_⟩
    rcases List.mem_append.mp inside with inPath_ | last
    · exact name c inPath_ ▸ fixed 'x' (by decide)
    · exact List.mem_singleton.mp last ▸ quoted
  have directive : ∀ c ∈ directiveText quote path, c ∈ quote.char :: "\n;#include x".toList := by
    intro c inside
    rcases List.mem_append.mp inside with inWord | behind
    · exact fixed c (word c inWord)
    · exact List.forall_mem_cons.mpr ⟨fixed ' ' (by decide), literal⟩ c behind
  exact List.forall_mem_cons.mpr ⟨fixed '\n' (by decide),
    List.forall_mem_cons.mpr ⟨fixed ';' (by decide),
      List.forall_mem_cons.mpr ⟨quoted, directive⟩⟩⟩ c member

/-- The interior of a literal that closes so many blocks and goes on with a directive. -/
def intrusion (depth : Nat) (quote : Quote) (path : Text) : Text :=
  List.replicate depth '}' ++ directiveLine quote.other path

theorem intrusion_chars (depth : Nat) (quote : Quote) (path : Text) (name : ∀ c ∈ path, c = 'x') (c : Char)
    (member : c ∈ intrusion depth quote path) : c ≠ '\\' ∧ c ≠ quote.char ∧ c ≠ '@' := by
  have listed : c ∈ '}' :: quote.other.char :: "\n;#include x".toList := by
    rcases List.mem_append.mp member with closing | inLine
    · exact List.eq_of_mem_replicate closing ▸ List.mem_cons_self
    · exact List.mem_cons_of_mem _ (directiveLine_chars quote.other path name c inLine)
  have apart : ∀ c ∈ '}' :: quote.other.char :: "\n;#include x".toList,
      c ≠ '\\' ∧ c ≠ quote.char ∧ c ≠ '@' := by
    cases quote with
    | double => decide
    | single => decide
  exact apart c listed

theorem directiveLine_plain (quote : Quote) (path : Text) (name : ∀ c ∈ path, c = 'x') :
    ∀ c ∈ directiveLine quote path, braces.IsPlain c := by
  have plain : ∀ c ∈ quote.char :: "\n;#include x".toList, braces.IsPlain c := by
    cases quote with
    | double => decide
    | single => decide
  exact fun c member => plain c (directiveLine_chars quote path name c member)

-- Once all blocks are closed, nothing that follows takes the directive out of the folded text.
theorem intrusion_includes {before after : List Token} {quote : Quote} {interior : Text} (path : Text)
    (some_char : path ≠ []) (name : ∀ c ∈ path, c = 'x')
    (literal : IsLiteral before quote interior after) :
    ∃ other, IsLiteral before quote other after ∧
      path ∈ Script.includePaths (withLiteral before quote other after) := by
  let opened := (fold braces (stripped before)).push quote.char
  let line := directiveLine quote.other path
  let other := intrusion opened.layers.length quote path
  have chars := intrusion_chars opened.layers.length quote path name
  have exchanged : IsLiteral before quote other after := literal.exchange other fun c member =>
    ⟨(chars c member).1, (chars c member).2.1⟩
  have kept : attachHandles other = other :=
    (AllAttached.unmarked other fun member => (chars '@' member).2.2 rfl).attached
  have mark : braces.IsPlain quote.char := by
    cases quote with
    | double => decide
    | single => decide
  have folded : fold braces (stripComments (withLiteral before quote other after)) =
      (List.replicate opened.layers.length '}' ++ (line ++ quote.char :: stripped after)).foldl
        (Folded.step braces) opened := by
    rw [exchanged.stripComments, kept, fold, List.foldl_append, ← fold, List.foldl_cons,
      Folded.step_plain braces (fold braces (stripped before)) quote.char mark]
    exact congrArg (List.foldl (Folded.step braces) opened) (List.append_assoc _ _ _)
  obtain ⟨lead, more, surfaced⟩ := foldl_surfaced braces braces_distinct opened line
    (quote.char :: stripped after) (directiveLine_plain quote.other path name)
  have text : foldedText braces (stripComments (withLiteral before quote other after)) =
      (lead ++ ['\n', ';']) ++ quote.other.char :: (directiveText quote.other path ++ more) := by
    rw [foldedText, folded]
    exact surfaced.trans (List.append_assoc lead ['\n', ';'] _).symm
  refine ⟨other, exchanged, List.mem_filter.mpr ⟨?_, ?_⟩⟩
  · rw [text]
    apply directive_found
    intro c member
    rw [name c member]
    cases quote with
    | double => rfl
    | single => rfl
  · simpa using some_char

/-- What a literal contains can be exchanged without a change to the includes as long as no directive
goes on into the literal or begins in it, and as long as its braces match. But no literal is out of
reach of the search: any can be made to hold a directive that the search finds. -/
theorem literal_reaches_includes (before after : List Token) (quote : Quote) (interior : Text)
    (literal : IsLiteral before quote interior after) :
    (∀ other, IsLiteral before quote other after → Inert interior → Inert other →
      ¬Begun quote (foldedText braces (stripped before)) →
        (Script.parse (withLiteral before quote other after)).includes =
          (Script.parse (withLiteral before quote interior after)).includes) ∧
      ∃ other, IsLiteral before quote other after ∧
        (Script.parse (withLiteral before quote other after)).includes ≠
          (Script.parse (withLiteral before quote interior after)).includes := by
  constructor
  · intro other exchanged inert otherInert notBegun
    exact includePaths_inert literal exchanged inert otherInert notBegun
  · let known := Script.includePaths (withLiteral before quote interior after)
    -- A path that is longer than all known ones together is a new one.
    let path := List.replicate (known.flatten.length + 1) 'x'
    obtain ⟨other, exchanged, found⟩ := intrusion_includes path (by simp [path])
      (fun c member => List.eq_of_mem_replicate member) literal
    refine ⟨other, exchanged, fun same => ?_⟩
    have member : path ∈ known := by
      change path ∈ (Script.parse (withLiteral before quote interior after)).includes
      rw [← same]
      exact found
    have length := (List.sublist_flatten_of_mem member).length_le
    rw [List.length_replicate] at length
    omega

-- The literal stands between two directives, and its braces and quotes stay its own.
theorem literal_reaches_includes_inert :
    let before := tokenize "#include \"a.as\"\nstring s = ".toList
    let after := tokenize ";\n#include 'b.as'\n".toList
    let interior := "see a.as, \x7b".toList ++ "'c.as' \x7d".toList
    IsLiteral before .double interior after ∧ Inert interior ∧
      ¬Begun .double (foldedText braces (stripped before)) ∧
      (Script.parse (withLiteral before .double [] after)).includes =
        (Script.parse (withLiteral before .double interior after)).includes ∧
      (Script.parse (withLiteral before .double [] after)).includes = ["a.as".toList, "b.as".toList] := by
  intro before after interior
  have literal : IsLiteral before .double interior after := by
    rw [IsLiteral]
    decide +kernel
  have empty : IsLiteral before .double [] after := by
    rw [IsLiteral]
    decide +kernel
  have inert : Inert interior := ⟨by decide +kernel, by decide +kernel⟩
  have notBegun : ¬Begun .double (foldedText braces (stripped before)) := by decide +kernel
  have same := (literal_reaches_includes before after .double interior literal).1 [] empty inert
    ⟨by decide, by decide +kernel⟩ notBegun
  exact ⟨literal, inert, notBegun, same, by decide +kernel⟩

-- A string that quotes a directive is read as one, though no directive stands in front of the string.
theorem directive_read_in_literal :
    let before := tokenize "string s = ".toList
    let after := tokenize ";\n".toList
    let interior := "#include 'x.as'".toList
    IsLiteral before .double interior after ∧ IsLiteral before .double [] after ∧
      NoDirective (stripped before) ∧
      (Script.parse (withLiteral before .double interior after)).includes = ["x.as".toList] ∧
      (Script.parse (withLiteral before .double [] after)).includes = [] := by
  intro before after interior
  refine ⟨?_, ?_, by decide +kernel, by decide +kernel, by decide +kernel⟩
  · rw [IsLiteral]
    decide +kernel
  · rw [IsLiteral]
    decide +kernel

end ScriptSense
