import ScriptSense.Proofs.Inside
import ScriptSense.Proofs.TokenEnd

/-!
A text without its comments. The blanks that stand for a comment join the code around it, so the tokens
of such a text are those of the text itself, with code where the comments were and with neighbouring
tokens of code joined. Whatever does not tell one token of code from two finds the same in both texts.
-/
namespace ScriptSense

namespace Token

inductive Joined : List Token → List Token → Prop where
  | refl (tokens : List Token) : Joined tokens tokens
  | symm {left right : List Token} (same : Joined left right) : Joined right left
  | trans {left middle right : List Token} (first : Joined left middle)
      (second : Joined middle right) : Joined left right
  | cons (token : Token) {left right : List Token} (same : Joined left right) :
      Joined (token :: left) (token :: right)
  | empty (tokens : List Token) : Joined (⟨.code, []⟩ :: tokens) tokens
  | split (front back : Text) (tokens : List Token) :
      Joined (⟨.code, front ++ back⟩ :: tokens) (⟨.code, front⟩ :: ⟨.code, back⟩ :: tokens)

namespace Joined

theorem of_eq {left right : List Token} (same : left = right) : Joined left right := same ▸ .refl left

theorem blanked {left right : List Token} (joined : Joined left right) (strings : Bool) :
    left.flatMap (Token.blanked strings) = right.flatMap (Token.blanked strings) := by
  induction joined with
  | refl tokens => rfl
  | symm _ ih => exact ih.symm
  | trans _ _ first second => exact first.trans second
  | cons token _ ih => rw [List.flatMap_cons, List.flatMap_cons, ih]
  | empty tokens => rfl
  | split front back tokens => simp [Token.blanked]

theorem cutOpen {left right : List Token} (joined : Joined left right) (offset : Nat) :
    Token.cutOpen left offset = Token.cutOpen right offset := by
  induction joined generalizing offset with
  | refl tokens => rfl
  | symm _ ih => exact (ih offset).symm
  | trans _ _ first second => exact (first offset).trans (second offset)
  | cons token _ ih => rw [Token.cutOpen, Token.cutOpen, ih]
  | empty tokens =>
      cases offset with
      | zero => rw [cutOpen_start, cutOpen_start]
      | succ offset => rfl
  | split front back tokens =>
      have length := Text.byteLength_append front back
      simp only [Token.cutOpen, openAt, length]
      by_cases here : offset ≤ Text.byteLength front
      · rw [if_pos here, if_pos (by omega)]
      · rw [if_neg here, Nat.sub_add_eq]
        by_cases behind : offset - Text.byteLength front ≤ Text.byteLength back
        · rw [if_pos behind, if_pos (by omega)]
        · rw [if_neg behind, if_neg (by omega)]

theorem code_then (held rest : Text) :
    Joined (scan (some (.code, held)) rest) (⟨.code, held.reverse⟩ :: tokenize rest) := by
  induction rest generalizing held with
  | nil => exact .refl _
  | cons first rest ih =>
      by_cases code : Mode.start first = .code
      · have step : Mode.step .code first = .extend .code := by rw [Mode.step, if_pos code]
        have fresh : tokenize (first :: rest) = scan (some (.code, [first])) rest := by
          rw [tokenize, scan, code]
        have here := ih (first :: held)
        rw [List.reverse_cons] at here
        rw [scan, step, fresh]
        exact here.trans ((Joined.split _ _ _).trans ((ih [first]).symm.cons _))
      · have step : Mode.step .code first = .restart := by rw [Mode.step, if_neg code]
        rw [scan, step]
        exact .refl _

/-- Code in front of a text is a token of its own, as far as that shows. -/
theorem code_front (text rest : Text) (code : ∀ c ∈ text, isCode c = true) :
    Joined (tokenize (text ++ rest)) (⟨.code, text⟩ :: tokenize rest) := by
  cases text with
  | nil => exact (Joined.empty _).symm
  | cons first text =>
      have scanned := code_then (first :: text).reverse rest
      rwa [← (Mode.holds_code first text code).scan, List.reverse_reverse] at scanned

end Joined

def bare (token : Token) : Token :=
  if token.kind.isComment then ⟨.code, blank token.text⟩ else token

theorem bare_text (token : Token) : token.bare.text = token.blanked false := by
  obtain ⟨kind, text⟩ := token
  cases kind <;> rfl

theorem bare_plain (token : Token) (plain : token.kind.isComment = false) :
    token.blanked false = token.text := by
  obtain ⟨kind, text⟩ := token
  cases kind with
  | lineComment | blockComment closed => cases plain
  | _ => rfl

theorem bare_comment (token : Token) (comment : token.kind.isComment = true) :
    token.blanked false = blank token.text := by
  rw [← bare_text, bare, if_pos comment]

theorem bare_blanked (strings : Bool) (token : Token) :
    token.bare.blanked strings = token.blanked strings := by
  obtain ⟨kind, text⟩ := token
  cases kind <;> rfl

theorem blanked_head (strings : Bool) (token : Token) (plain : token.kind.isComment = false) :
    (token.blanked strings).head? = token.text.head? := by
  obtain ⟨kind, text⟩ := token
  cases kind with
  | lineComment | blockComment closed => cases plain
  | slash | code => rfl
  | string quote closed =>
      cases strings with
      | false => rfl
      | true => cases text <;> rfl

/-- A text that begins with no comment begins as before when it is blanked. -/
theorem blankTrivia_head (strings : Bool) (text : Text) (notSlash : text.head? ≠ some '/') :
    (blankTrivia strings text).head? = text.head? := by
  cases scanned : tokenize text with
  | nil =>
      obtain rfl := tokenize_nil text scanned
      rfl
  | cons token later =>
      obtain ⟨rest, split, _, ends⟩ := first_token text token later scanned
      obtain ⟨first, more, shape⟩ := List.exists_cons_of_ne_nil ends.some_char
      have plain : token.kind.isComment = false := by
        cases comment : token.kind.isComment with
        | false => rfl
        | true =>
            rw [split, List.head?_append, ends.comment_head comment] at notSlash
            exact absurd rfl notSlash
      have head := token.blanked_head strings plain
      rw [shape] at head
      rw [blankTrivia, scanned, List.flatMap_cons, split, List.head?_append, head, shape]
      rfl

/-- Without comments a token stands in front of what is left of the text behind it, and the blanks
of a comment as a token of code. -/
theorem Ends.joined {token : Token} {rest : Text} (ends : Ends token rest) :
    Joined (tokenize (token.blanked false ++ blankTrivia false rest))
      (token.bare :: tokenize (blankTrivia false rest)) := by
  have comment (kind : token.kind.isComment = true) : Joined
      (tokenize (token.blanked false ++ blankTrivia false rest))
      (token.bare :: tokenize (blankTrivia false rest)) := by
    have blanks : ∀ c ∈ blank token.text, isCode c = true := fun c member =>
      blank_code c (by simpa using List.filter_eq_nil_iff.mp (blank_marks token.text) c member)
    rw [token.bare_comment kind, bare, if_pos kind]
    exact Joined.code_front (blank token.text) (blankTrivia false rest) blanks
  cases ends with
  | closed mode text c holds closes shape =>
      subst shape
      have taken := Mode.takes_of closes
      cases taken with
      | stringEnd => exact .of_eq (holds.close _ closes (blankTrivia false rest))
      | blockEnd => exact comment rfl
  | before mode holds stops kind =>
      obtain ⟨_, text⟩ := token
      subst kind
      cases mode with
      | code => exact Joined.code_front text _ holds.shows_mode
      | lineComment => exact comment rfl
      | blockComment star => exact comment rfl
      | slash =>
          have notSlash : rest.head? ≠ some '/' := by
            intro head
            cases stops '/' head
          refine .of_eq (holds.stop (blankTrivia false rest) fun c head => ?_)
          exact stops c (blankTrivia_head false rest notSlash ▸ head)
      | string quote escaped =>
          obtain rfl : rest = [] := Mode.string_goes_on quote escaped rest stops
          exact .of_eq (holds.stop [] (by rintro _ ⟨⟩))

theorem tokenize_bare (text : Text) :
    Joined (tokenize (blankTrivia false text)) ((tokenize text).map bare) := by
  induction scanned : tokenize text generalizing text with
  | nil =>
      rw [blankTrivia, scanned]
      exact .refl _
  | cons token later ih =>
      obtain ⟨rest, _, behind, ends⟩ := first_token text token later scanned
      have whole : blankTrivia false text = token.blanked false ++ blankTrivia false rest := by
        rw [blankTrivia, scanned, List.flatMap_cons, blankTrivia, behind]
      rw [whole, List.map_cons]
      exact ends.joined.trans ((ih rest behind).cons _)

theorem bare_layout (token : Token) : SameLayout token.text (token.blanked false) := by
  obtain ⟨kind, text⟩ := token
  cases kind with
  | lineComment => exact blank_layout text
  | blockComment closed => exact blank_layout text
  | string quote closed => exact .refl text
  | slash => exact .refl text
  | code => exact .refl text

/-- A place outside of comments and strings is outside of what stands for them. -/
theorem cutOpen_bare (tokens : List Token) (offset : Nat) (outside : cutOpen tokens offset = false) :
    cutOpen (tokens.map bare) offset = false := by
  induction tokens generalizing offset with
  | nil => rfl
  | cons token tokens ih =>
      have length : Text.byteLength token.bare.text = Text.byteLength token.text := by
        rw [bare_text]
        exact token.bare_layout.length
      rw [cutOpen] at outside
      rw [List.map_cons, cutOpen, length]
      by_cases within : offset ≤ Text.byteLength token.text
      · rw [if_pos within] at outside ⊢
        rw [bare]
        split
        · rfl
        · exact outside
      · rw [if_neg within] at outside ⊢
        exact ih _ outside

end Token

theorem blankTrivia_bare (strings : Bool) (text : Text) :
    blankTrivia strings (blankTrivia false text) = blankTrivia strings text := by
  rw [blankTrivia, (Token.tokenize_bare text).blanked strings, List.flatMap_map]
  exact List.flatMap_congr fun token _ => token.bare_blanked strings

theorem Script.parse_bare (text : Text) : Script.parse (blankTrivia false text) = Script.parse text := by
  simp only [Script.parse, sanitize, Script.includePaths, stripComments, blankTrivia_bare]

theorem bare_layout (text : Text) : SameLayout text (blankTrivia false text) := by
  have tokens := SameLayout.flatMap (tokenize text) (·.text) (Token.blanked false) fun token _ =>
    token.bare_layout
  rwa [Token.tokenize_text] at tokens

theorem endsInTrivia_bare (text : Text) (offset : Nat) (boundary : offset ∈ Text.boundaries text)
    (outside : endsInTrivia (Text.takeBytes offset text) = false) :
    endsInTrivia (Text.takeBytes offset (blankTrivia false text)) = false := by
  have also := (bare_layout text).boundaries boundary
  obtain ⟨front, back, split, length⟩ := (Text.mem_boundaries offset _).mp also
  obtain ⟨lead, rest, rfl, rfl⟩ := (Text.mem_boundaries offset text).mp boundary
  rw [Text.takeBytes_append, endsInTrivia_cut lead rest] at outside
  have cut := (Token.tokenize_bare (lead ++ rest)).cutOpen (Text.byteLength lead)
  rw [Token.cutOpen_bare _ _ outside, split, length] at cut
  rw [split, length, Text.takeBytes_append, endsInTrivia_cut front back]
  exact cut

/-- The texts are the same behind some place, at which a line breaks in both of them, or a comment
ends or begins in the first and a space stands for its `/` in the second. -/
inductive SameEnd (one two : Text) : Prop where
  | same (equal : one = two)
  | line (lead other rest : Text) (first : one = lead ++ '\n' :: rest)
      (second : two = other ++ '\n' :: rest)
  | slash (lead other rest : Text) (first : one = lead ++ '/' :: rest)
      (second : two = other ++ ' ' :: rest)

/-- What stands in front makes no difference, unless the texts are the same as a whole. -/
theorem SameEnd.behind (front other : Text) {one two : Text} (alike : SameEnd one two) :
    SameEnd (front ++ one) (other ++ two) ∨ one = two := by
  cases alike with
  | same equal => exact .inr equal
  | line lead blanked rest first second =>
      exact .inl (.line (front ++ lead) (other ++ blanked) rest (by simp [first]) (by simp [second]))
  | slash lead blanked rest first second =>
      exact .inl (.slash (front ++ lead) (other ++ blanked) rest (by simp [first]) (by simp [second]))

theorem Text.takeBytes_zero (text : Text) : Text.takeBytes 0 text = [] :=
  Text.takeBytes_append [] text

theorem Text.takeBytes_within (offset : Nat) (front back : Text)
    (within : offset ≤ Text.byteLength front) :
    Text.takeBytes offset (front ++ back) = Text.takeBytes offset front := by
  induction front generalizing offset with
  | nil =>
      obtain rfl := Nat.le_zero.mp within
      exact Text.takeBytes_append [] back
  | cons first front ih =>
      rw [List.cons_append, takeBytes, takeBytes]
      split
      · rw [byteLength] at within
        rw [ih _ (by omega)]
      · rfl

namespace Token

/-- A place in a comment that counts as outside is in front of it, behind its first `/` or at its
end. -/
theorem Ends.front_within {token : Token} {rest : Text} (ends : Ends token rest) (offset : Nat)
    (within : offset ≤ Text.byteLength token.text) (outside : token.openAt offset = false) :
    SameEnd (Text.takeBytes offset token.text) (Text.takeBytes offset (token.blanked false)) := by
  cases comment : token.kind.isComment with
  | false => exact .same (by rw [token.bare_plain comment])
  | true =>
      rw [token.bare_comment comment]
      by_cases whole : offset = Text.byteLength token.text ∧ token.kind = .blockComment true
      · obtain ⟨rfl, closed⟩ := whole
        obtain ⟨front, shape⟩ := ends.comment_closed closed
        have all := Text.takeBytes_append token.text []
        have allBlank := Text.takeBytes_append (blank token.text) []
        rw [(blank_layout token.text).length] at allBlank
        rw [List.append_nil] at all allBlank
        refine .slash front (blank front) [] (all.trans shape) (allBlank.trans ?_)
        rw [shape, blank_append]
        rfl
      · have early : offset < 2 := by
          rw [openAt] at outside
          cases kind : token.kind with
          | lineComment => simpa [kind] using outside
          | blockComment closed =>
              cases closed with
              | true =>
                  have unfinished : offset < Text.byteLength token.text :=
                    Nat.lt_of_le_of_ne within fun equal => whole ⟨equal, kind⟩
                  simpa [kind, unfinished] using outside
              | false => simpa [kind] using outside
          | _ =>
              rw [kind] at comment
              cases comment
        obtain ⟨more, shape⟩ := List.head?_eq_some_iff.mp (ends.comment_head comment)
        rw [shape]
        obtain rfl | rfl : offset = 0 ∨ offset = 1 := by omega
        · exact .same (by rw [Text.takeBytes_zero, Text.takeBytes_zero])
        · refine .slash [] [] [] ?_ ?_
          · rw [Text.takeBytes, if_pos (by decide)]
            exact congrArg _ (Text.takeBytes_zero more)
          · exact congrArg _ (Text.takeBytes_zero (blank more))

/-- A comment that is behind in the text ends in a `/`, or a line break follows it. -/
theorem Ends.front_behind {token : Token} {rest : Text} (ends : Ends token rest)
    (comment : token.kind.isComment = true) (further : Nat) (positive : 0 < further)
    (room : further ≤ Text.byteLength rest) :
    SameEnd (token.text ++ Text.takeBytes further rest)
      (blank token.text ++ Text.takeBytes further rest) := by
  by_cases closed : token.kind = .blockComment true
  · obtain ⟨front, shape⟩ := ends.comment_closed closed
    refine .slash front (blank front) (Text.takeBytes further rest) (by simp [shape]) ?_
    rw [shape, blank_append, List.append_assoc]
    rfl
  · cases rest with
    | nil => exact absurd room (Nat.not_le_of_lt positive)
    | cons first rest =>
        obtain rfl : first = '\n' := ends.comment_open comment closed first rfl
        have fits : '\n'.utf8Size ≤ further := positive
        rw [Text.takeBytes, if_pos fits]
        exact .line token.text (blank token.text) _ rfl rfl

theorem cut_alike (text : Text) (offset : Nat) (boundary : offset ∈ Text.boundaries text)
    (outside : cutOpen (tokenize text) offset = false) :
    SameEnd (Text.takeBytes offset text) (Text.takeBytes offset (blankTrivia false text)) := by
  induction scanned : tokenize text generalizing text offset with
  | nil =>
      obtain rfl := tokenize_nil text scanned
      exact .same rfl
  | cons token later ih =>
      obtain ⟨rest, split, behind, ends⟩ := first_token text token later scanned
      have bareText : blankTrivia false text = token.blanked false ++ blankTrivia false rest := by
        rw [blankTrivia, scanned, List.flatMap_cons, blankTrivia, behind]
      have length := token.bare_layout.length
      rw [scanned] at outside
      rw [bareText, split]
      by_cases within : offset ≤ Text.byteLength token.text
      · rw [cutOpen_here token later offset within] at outside
        rw [Text.takeBytes_within offset _ _ within, Text.takeBytes_within offset _ _ (length ▸ within)]
        exact ends.front_within offset within outside
      · obtain ⟨further, rfl, positive⟩ : ∃ further, offset = Text.byteLength token.text + further ∧
            0 < further := ⟨offset - Text.byteLength token.text, by omega, by omega⟩
        have place : further ∈ Text.boundaries rest := by
          rw [split] at boundary
          rcases (Text.mem_boundaries_append _ _ _).mp boundary with early | ⟨other, place, equal⟩
          · exact absurd (Text.boundary_le _ _ early) within
          · rwa [Nat.add_left_cancel equal]
        rw [cutOpen_later token later further positive] at outside
        have alike := ih rest further place (behind ▸ outside) behind
        have bareBehind := Text.takeBytes_behind (token.blanked false) (blankTrivia false rest) further
        rw [length] at bareBehind
        rw [Text.takeBytes_behind, bareBehind]
        rcases alike.behind token.text (token.blanked false) with later | equal
        · exact later
        · cases comment : token.kind.isComment with
          | false => exact .same (by rw [token.bare_plain comment, equal])
          | true =>
              rw [token.bare_comment comment, ← equal]
              exact ends.front_behind comment further positive (Text.boundary_le _ _ place)

end Token

/-- Up to a place outside of comments and strings, a text and the text without its comments differ in
nothing that is behind the last comment. -/
theorem fronts_alike (text : Text) (offset : Nat) (boundary : offset ∈ Text.boundaries text)
    (outside : endsInTrivia (Text.takeBytes offset text) = false) :
    SameEnd (Text.takeBytes offset text) (Text.takeBytes offset (blankTrivia false text)) := by
  have place := boundary
  obtain ⟨front, back, rfl, rfl⟩ := (Text.mem_boundaries offset text).mp boundary
  rw [Text.takeBytes_append, endsInTrivia_cut front back] at outside
  exact Token.cut_alike (front ++ back) _ place outside

end ScriptSense
