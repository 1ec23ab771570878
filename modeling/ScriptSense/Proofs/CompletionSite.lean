import ScriptSense.Answer
import ScriptSense.Proofs.Trivia
import ScriptSense.Proofs.Uncommented

/-!
Completions and comments. What is offered at a place comes from the text without its comments, but the
site is read off the line as it is written. There the `/` of a comment hides a `.` in front of it, and
the start of the line.
-/
namespace ScriptSense

namespace Text

theorem dropEndWhile_stop (drop : Char → Bool) (stop : Char) (refused : drop stop = false)
    (lead rest : Text) :
    dropEndWhile drop (lead ++ stop :: rest) = lead ++ stop :: dropEndWhile drop rest := by
  have cut := dropWhile_stop drop stop refused rest.reverse lead.reverse
  rw [dropEndWhile, dropEndWhile, List.reverse_append, List.reverse_cons, List.append_assoc,
    List.singleton_append, cut]
  simp

theorem takeEndWhile_stop (keep : Char → Bool) (stop : Char) (refused : keep stop = false)
    (lead rest : Text) : takeEndWhile keep (lead ++ stop :: rest) = takeEndWhile keep rest := by
  have cut := takeWhile_stop keep stop refused rest.reverse lead.reverse
  rw [takeEndWhile, takeEndWhile, List.reverse_append, List.reverse_cons, List.append_assoc,
    List.singleton_append, cut]

theorem takeEndWhile_kept (keep : Char → Bool) (lead run : Text) (inside : ∀ c ∈ run, keep c = true) :
    takeEndWhile keep (lead ++ run) = takeEndWhile keep lead ++ run := by
  have kept : ∀ c ∈ run.reverse, keep c = true := fun c member =>
    inside c (List.mem_reverse.mp member)
  rw [takeEndWhile, takeEndWhile, List.reverse_append, List.takeWhile_append_of_pos kept,
    List.reverse_append, List.reverse_reverse]

end Text

/-- The last lines are the same, unless a `/` of a comment is on the first one: then they are the same
behind it. -/
theorem SameEnd.lastLine {one two : Text} (alike : SameEnd one two) :
    Text.takeEndWhile (· != '\n') one = Text.takeEndWhile (· != '\n') two ∨
      ∃ lead other rest, Text.takeEndWhile (· != '\n') one = lead ++ '/' :: rest ∧
        Text.takeEndWhile (· != '\n') two = other ++ ' ' :: rest := by
  cases alike with
  | same equal => exact .inl (by rw [equal])
  | line lead other rest first second =>
      rw [first, second, Text.takeEndWhile_stop _ '\n' (by decide),
        Text.takeEndWhile_stop _ '\n' (by decide)]
      exact .inl rfl
  | slash lead other rest first second =>
      rw [first, second]
      by_cases broken : '\n' ∈ rest
      · obtain ⟨front, back, rfl⟩ := List.append_of_mem broken
        have behind (start : Text) (c : Char) :
            Text.takeEndWhile (· != '\n') (start ++ c :: (front ++ '\n' :: back)) =
              Text.takeEndWhile (· != '\n') back := by
          rw [← List.cons_append, ← List.append_assoc]
          exact Text.takeEndWhile_stop _ '\n' (by decide) _ back
        exact .inl ((behind lead '/').trans (behind other ' ').symm)
      · have unbroken (c : Char) (notLine : c ≠ '\n') : ∀ d ∈ c :: rest, (d != '\n') = true := by
          intro d member
          rw [bne_iff_ne]
          rintro rfl
          rcases List.mem_cons.mp member with same | later
          · exact notLine same.symm
          · exact broken later
        exact .inr ⟨_, _, rest, Text.takeEndWhile_kept _ lead _ (unbroken '/' (by decide)),
          Text.takeEndWhile_kept _ other _ (unbroken ' ' (by decide))⟩

namespace CompletionSite

theorem primitive_no_slash (word : Text) (primitive : isPrimitive word = true) : '/' ∉ word := by
  have all : ∀ word ∈ primitives, '/' ∉ word := by decide +kernel
  exact all word (List.contains_iff_mem.mp primitive)

def beforeName (line : Text) : Text := Text.trimEnd (Text.beforeTrailingName line)

theorem beforeName_stop (stop : Char) (notName : isNameChar stop = false)
    (notBlank : isBlank stop = false) (lead rest : Text) :
    beforeName (lead ++ stop :: rest) = lead ++ stop :: beforeName rest := by
  rw [beforeName, Text.beforeTrailingName, Text.dropEndWhile_stop _ stop notName, Text.trimEnd,
    Text.dropEndWhile_stop _ stop notBlank]
  rfl

theorem getLast?_behind (lead rest : Text) (c : Char) :
    (lead ++ c :: rest).getLast? = some (rest.getLast?.getD c) := by
  rw [List.getLast?_append, List.getLast?_cons]
  rfl

/-- Behind a `/` on the line only a `.` behind it makes a site of its own. -/
theorem ofLine_slash (lead rest : Text) :
    ofLine (lead ++ '/' :: rest) =
      if (beforeName rest).getLast? = some '.' then .member else .elsewhere := by
  have before := beforeName_stop '/' (by decide) (by decide) lead rest
  have visible : '/' ∈ Text.trimStart (lead ++ '/' :: beforeName rest) :=
    Text.mem_dropWhile isBlank '/' (by decide) _ (by simp)
  have some_char : (Text.trimStart (lead ++ '/' :: beforeName rest)).isEmpty = false := by
    rw [List.isEmpty_eq_false_iff]
    exact List.ne_nil_of_mem visible
  have notPrimitive : isPrimitive (Text.trimStart (lead ++ '/' :: beforeName rest)) = false := by
    rw [Bool.eq_false_iff]
    exact fun primitive => primitive_no_slash _ primitive visible
  have last : (lead ++ '/' :: beforeName rest).getLast? = some '.' ↔
      (beforeName rest).getLast? = some '.' := by
    rw [getLast?_behind]
    cases (beforeName rest).getLast? with
    | none => simp
    | some c => simp
  rw [beforeName] at before
  simp only [ofLine, before, some_char, notPrimitive, last, Bool.false_or, Bool.false_eq_true, if_false]

theorem ofLine_space (lead rest : Text) (dot : (beforeName rest).getLast? = some '.') :
    ofLine (lead ++ ' ' :: rest) = .member := by
  obtain ⟨front, shape⟩ := List.getLast?_eq_some_iff.mp dot
  obtain ⟨trail, split⟩ := Text.trimEnd_split (Text.beforeTrailingName rest)
  rw [← beforeName, shape] at split
  have before : beforeName (lead ++ ' ' :: rest) = lead ++ ' ' :: (front ++ ['.']) := by
    have stop : Stops isBlank (lead ++ ' ' :: (front ++ ['.'])).reverse := by simp [Stops]; decide
    have trimmed := Text.trimEnd_gap _ trail stop
    rw [beforeName, Text.beforeTrailingName, Text.dropEndWhile_stop _ ' ' (by decide),
      ← Text.beforeTrailingName, split, ← trimmed]
    simp
  have last : (beforeName (lead ++ ' ' :: rest)).getLast? = some '.' := by
    rw [before, getLast?_behind, List.getLast?_concat]
    rfl
  exact if_pos last

end CompletionSite

namespace OpenScript

def offered (knowledge : Knowledge) (opened : OpenScript) (offset : Nat) :
    CompletionSite → List Completion
  | .member => opened.memberCompletions knowledge offset
  | .lineStart =>
      knowledge.hooks.map Completion.ofCallable ++ opened.generalCompletions knowledge offset
  | .elsewhere => opened.generalCompletions knowledge offset

theorem member_no_keyword (knowledge : Knowledge) (opened : OpenScript) (offset : Nat) :
    ∀ item ∈ opened.memberCompletions knowledge offset, item.kind ≠ .keyword := by
  have callable (callable : Callable) : (Completion.ofCallable callable).kind ≠ .keyword := by
    rw [Completion.ofCallable]
    split
    · simp
    · split <;> simp
  intro item member
  rw [memberCompletions] at member
  split at member
  · rcases List.mem_append.mp member with method | property
    · obtain ⟨function, _, rfl⟩ := List.mem_map.mp method
      exact callable function
    · obtain ⟨field, _, rfl⟩ := List.mem_map.mp property
      simp [Completion.ofProperty]
  · cases member

/-- Primitive types are offered outside of members, and only there. -/
theorem general_ne_member (knowledge : Knowledge) (opened : OpenScript) (offset : Nat) :
    opened.generalCompletions knowledge offset ≠ opened.memberCompletions knowledge offset := by
  intro same
  have keyword : Completion.ofKeyword "void".toList ∈ opened.generalCompletions knowledge offset :=
    List.mem_append_right _ (List.mem_map_of_mem (by decide))
  rw [same] at keyword
  exact member_no_keyword knowledge opened offset _ keyword rfl

theorem offered_elsewhere (knowledge : Knowledge) (opened : OpenScript) (offset : Nat)
    (site : CompletionSite) :
    opened.offered knowledge offset .elsewhere = opened.offered knowledge offset site ↔
      site = .elsewhere ∨ site = .lineStart ∧ knowledge.hooks = [] := by
  cases site with
  | member => simpa [offered] using general_ne_member knowledge opened offset
  | lineStart => simp [offered]
  | elsewhere => simp

theorem completions_offered (knowledge : Knowledge) (text : Text) (included : List Script) (offset : Nat)
    (boundary : offset ∈ Text.boundaries text)
    (outside : endsInTrivia (Text.takeBytes offset text) = false) :
    (including text included).completions knowledge (Cursor.ofOffset offset text) =
      (including text included).offered knowledge offset
        (CompletionSite.ofLine ((Cursor.ofOffset offset text).lineBefore text)) := by
  have before := Cursor.before_ofOffset offset text boundary
  have place : (Cursor.ofOffset offset text).offset text = offset := by
    rw [Cursor.offset, before, Text.byteLength_takeBytes offset text boundary]
  have whole : (including text included).text = text := rfl
  rw [completions, whole, before, if_neg (by simp [outside]), place]
  cases CompletionSite.ofLine ((Cursor.ofOffset offset text).lineBefore text) <;> rfl

/-- Without its comments a script offers at each site what it offers with them. -/
theorem offered_bare (knowledge : Knowledge) (text : Text) (included : List Script) (offset : Nat)
    (site : CompletionSite) :
    (including (blankTrivia false text) included).offered knowledge offset site =
      (including text included).offered knowledge offset site := by
  have script : (including (blankTrivia false text) included).script =
      (including text included).script := Script.parse_bare text
  have overlay : (including (blankTrivia false text) included).overlay knowledge.functions =
      (including text included).overlay knowledge.functions := by
    rw [OpenScript.overlay, OpenScript.overlay, scripts, scripts, script]
    rfl
  have scope : (including (blankTrivia false text) included).scopeAt offset =
      (including text included).scopeAt offset := by
    rw [scopeAt, scopeAt, globals, globals, scripts, scripts, script]
    rfl
  have general : (including (blankTrivia false text) included).generalCompletions knowledge offset =
      (including text included).generalCompletions knowledge offset := by
    rw [generalCompletions, generalCompletions, overlay, scope]
  cases site with
  | member =>
      rw [offered, offered, memberCompletions, memberCompletions, resolverAt, resolverAt, overlay, scope,
        script]
  | lineStart => rw [offered, offered, general]
  | elsewhere => exact general

/-- Completions at a place outside of comments and strings, with the comments of the script and
without them. They are the same unless the `/` of a comment is on the line in front of the place, and
hides the site: a `.` in front of the comment, or a start of the line where hooks are offered. -/
theorem completions_without_comments (knowledge : Knowledge) (included : List Script) (text : Text)
    (offset : Nat) (boundary : offset ∈ Text.boundaries text)
    (outside : endsInTrivia (Text.takeBytes offset text) = false) :
    let bare := blankTrivia false text
    let written := (Cursor.ofOffset offset text).lineBefore text
    let line := (Cursor.ofOffset offset bare).lineBefore bare
    (written = line ∨ ∃ lead other rest,
      written = lead ++ '/' :: rest ∧ line = other ++ ' ' :: rest) ∧
    ((including text included).completions knowledge (Cursor.ofOffset offset text) =
        (including bare included).completions knowledge (Cursor.ofOffset offset bare) ↔
      written = line ∨ CompletionSite.ofLine written = .member ∨
        CompletionSite.ofLine line = .elsewhere ∨
        CompletionSite.ofLine line = .lineStart ∧ knowledge.hooks = []) := by
  intro bare written line
  have boundaryBare : offset ∈ Text.boundaries bare := (bare_layout text).boundaries boundary
  have lines : written = line ∨ ∃ lead other rest,
      written = lead ++ '/' :: rest ∧ line = other ++ ' ' :: rest := by
    have alike := (fronts_alike text offset boundary outside).lastLine
    rwa [← Cursor.before_ofOffset offset text boundary,
      ← Cursor.before_ofOffset offset bare boundaryBare] at alike
  refine ⟨lines, ?_⟩
  have answers : (including text included).completions knowledge (Cursor.ofOffset offset text) =
      (including text included).offered knowledge offset (CompletionSite.ofLine written) :=
    completions_offered knowledge text included offset boundary outside
  have answersBare : (including bare included).completions knowledge (Cursor.ofOffset offset bare) =
      (including bare included).offered knowledge offset (CompletionSite.ofLine line) :=
    completions_offered knowledge bare included offset boundaryBare
      (endsInTrivia_bare text offset boundary outside)
  rw [answers, answersBare, offered_bare]
  rcases lines with same | ⟨lead, other, rest, slash, space⟩
  · exact iff_of_true (by rw [same]) (.inl same)
  · by_cases dot : (CompletionSite.beforeName rest).getLast? = some '.'
    · have siteWritten : CompletionSite.ofLine written = .member := by
        rw [slash, CompletionSite.ofLine_slash, if_pos dot]
      have siteLine : CompletionSite.ofLine line = .member := by
        rw [space, CompletionSite.ofLine_space other rest dot]
      exact iff_of_true (by rw [siteWritten, siteLine]) (.inr (.inl siteWritten))
    · have siteWritten : CompletionSite.ofLine written = .elsewhere := by
        rw [slash, CompletionSite.ofLine_slash, if_neg dot]
      rw [siteWritten, offered_elsewhere]
      constructor
      · exact fun hidden => .inr (.inr hidden)
      · rintro (same | never | hidden)
        · exact .inl (same ▸ siteWritten)
        · cases never
        · exact hidden

-- The comments stand in front of the chain and behind the place, and one with wide characters moves it.
theorem completions_without_comments_chain :
    let blob := (Object.ofName "Blob".toList).addProperty "f32".toList "health".toList
    let declared : Variable := ⟨none, "Blob".toList, "blob".toList⟩
    let knowledge := (Knowledge.empty.insertObject blob).addVariable declared
    let text := "/* é */ blob. // end".toList
    let bare := blankTrivia false text
    endsInTrivia (Text.takeBytes 14 text) = false ∧
      (OpenScript.including text []).completions knowledge (Cursor.ofOffset 14 text) =
        (OpenScript.including bare []).completions knowledge (Cursor.ofOffset 14 bare) ∧
      ((OpenScript.including text []).completions knowledge (Cursor.ofOffset 14 text)).map (·.label) =
        ["health".toList] := by
  intro blob declared knowledge text bare
  have outside : endsInTrivia (Text.takeBytes 14 text) = false := by decide +kernel
  have same := (completions_without_comments knowledge [] text 14 (by decide +kernel) outside).2.mpr
    (.inr (.inl (by decide +kernel)))
  exact ⟨outside, same, by decide +kernel⟩

-- A comment behind the dot: all that can begin an expression is offered, not the members.
theorem completions_changed_by_comment :
    let blob := (Object.ofName "Blob".toList).addProperty "f32".toList "health".toList
    let declared : Variable := ⟨none, "Blob".toList, "blob".toList⟩
    let knowledge := (Knowledge.empty.insertObject blob).addVariable declared
    let text := "blob. /* member */ ".toList
    let bare := blankTrivia false text
    19 ∈ Text.boundaries text ∧ endsInTrivia (Text.takeBytes 19 text) = false ∧
      ((OpenScript.including bare []).completions knowledge (Cursor.ofOffset 19 bare)).map (·.label) =
        ["health".toList] ∧
      (OpenScript.including text []).completions knowledge (Cursor.ofOffset 19 text) ≠
        (OpenScript.including bare []).completions knowledge (Cursor.ofOffset 19 bare) := by
  decide +kernel

end OpenScript

end ScriptSense
