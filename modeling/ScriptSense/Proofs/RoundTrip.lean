import ScriptSense.Proofs.RenderedList

/-!
The round trip of parameters and signatures. What was read is read back from its rendered form, with
two exceptions: the type `const`, which in front of more is taken for the qualifier, and behind the
qualifier a type that begins with a handle, which is pulled onto the qualifier. In both cases what is
read back differs in being constant.
-/
namespace ScriptSense

theorem Passing.ofWord?_marked (word : Text) (passing : Passing) (read : ofWord? word = some passing) :
    passing ≠ byValue := by
  rintro rfl
  rw [ofWord?] at read
  split_ifs at read <;> cases read

/-- In front of its last word a text ends in blanks. -/
theorem Text.front_spaced (text : Text) (first : Stops isBlank text)
    (some_char : dropEndWhile (!isBlank ·) text ≠ []) :
    ∃ gap : Break, dropEndWhile (!isBlank ·) text =
      trim (dropEndWhile (!isBlank ·) text) ++ gap.text := by
  have whole := dropEndWhile_append (!isBlank ·) text
  have blank : Stops (!isBlank ·) (dropEndWhile (!isBlank ·) text).reverse := by
    rw [dropEndWhile, List.reverse_reverse]
    exact stops_dropWhile _ _
  generalize dropEndWhile (!isBlank ·) text = front at some_char whole blank ⊢
  have stop : Stops isBlank front := by
    obtain ⟨head, more, shape⟩ := List.exists_cons_of_ne_nil some_char
    rw [← whole, shape, List.cons_append, stops_cons] at first
    rwa [shape, stops_cons]
  obtain ⟨gap, spaced⟩ := trim_front front stop
  refine ⟨⟨gap, fun empty => ?_⟩, spaced⟩
  have visible := (trimmed_trim front).last
  rw [empty, List.append_nil] at spaced
  obtain ⟨last, rest, ends⟩ := List.exists_cons_of_ne_nil (List.reverse_ne_nil_iff.mpr some_char)
  rw [← spaced, ends, stops_cons] at visible
  rw [ends, stops_cons, visible] at blank
  cases blank

namespace Parameter

theorem splitConst_stops (declared inner : Text) (isConst : Bool) (stop : Stops isBlank declared)
    (split : splitConst declared = (isConst, inner)) : Stops isBlank inner := by
  rw [splitConst] at split
  split at split
  · split at split
    · cases split
      exact Text.stops_dropWhile isBlank _
    · cases split
      exact stop
  · cases split
    exact stop

/-- A parameter is read from a trimmed text that splits into its type, its passing and its name. -/
theorem parse?_inner (text : Text) (parameter : Parameter) (read : parse? text = some parameter) :
    ∃ inner, inner.Trimmed ∧
      splitName inner = (parameter.type, parameter.passing, parameter.name) ∧
      (parameter.isConst = false →
        (Text.after? "const".toList inner).bind (Text.afterSome? isBlank) = none) := by
  let declared := text.takeWhile (· != '=')
  have attached : attachHandles (Text.trim (attachHandles declared)) =
      Text.trim (attachHandles declared) := (allAttached_attachHandles declared).trim.attached
  rw [parse?_declared _ _ _ (List.span_eq_takeWhile_dropWhile ..), ← ofDeclared?_attachHandles,
    attached] at read
  obtain ⟨inner, const, name, _⟩ := ofDeclared?_parts _ _ _ read
  have trimmed := Text.trimmed_trim (attachHandles declared)
  have first := splitConst_stops _ inner _ trimmed.first const
  rcases splitConst_cases _ inner _ const with ⟨_, whole, noConst⟩ | ⟨isConst, gap, whole⟩
  · rw [← whole] at trimmed noConst
    exact ⟨inner, trimmed, name, fun _ => noConst⟩
  · refine ⟨inner, ⟨first, ?_⟩, name, fun plain => ?_⟩
    · by_cases empty : inner = []
      · simp [empty, Stops]
      · rw [whole, ← List.append_assoc] at trimmed
        exact (stops_reverse isBlank _ inner empty).mp trimmed.last
    · rw [plain] at isConst
      cases isConst

theorem splitName_unmarked (inner type name : Text) (split : splitName inner = (type, .byValue, name)) :
    '&' ∉ inner := by
  intro member
  obtain ⟨front, behind, rfl, apart⟩ := List.eq_append_cons_of_mem member
  rw [splitName_reference front behind apart] at split
  split at split
  · next passing read =>
      rw [Prod.mk.injEq, Prod.mk.injEq] at split
      exact Passing.ofWord?_marked _ passing read split.2.1
  · cases split

section
variable (inner type name : Text) (trimmed : inner.Trimmed)
variable (split : splitName inner = (type, .byValue, name))
include trimmed split

/-- Without a name and a reference mark the type is all that is declared. -/
theorem splitName_unnamed (unnamed : name = []) : type = inner := by
  rw [splitName_plain inner (splitName_unmarked inner type name split)] at split
  dsimp only at split
  split at split
  · next identifier =>
      rw [Prod.mk.injEq, Prod.mk.injEq, unnamed] at split
      rw [Bool.and_eq_true, split.2.2] at identifier
      exact absurd identifier.2 (by decide)
  · rw [Prod.mk.injEq, Text.trim_trimmed inner trimmed] at split
    exact split.1.symm

/-- Without a reference mark blanks stand between the type and the name. -/
theorem splitName_spaced (named : name ≠ []) : ∃ gap : Break, inner = type ++ (gap.text ++ name) := by
  rw [splitName_plain inner (splitName_unmarked inner type name split)] at split
  dsimp only at split
  split at split
  · next identifier =>
      rw [Prod.mk.injEq, Prod.mk.injEq] at split
      simp only [Bool.and_eq_true, Bool.not_eq_true', List.isEmpty_eq_false_iff] at identifier
      obtain ⟨gap, spaced⟩ := Text.front_spaced inner trimmed.first identifier.1
      have whole := Text.dropEndWhile_append (!isBlank ·) inner
      rw [spaced, split.1, split.2.2, List.append_assoc] at whole
      exact ⟨gap, whole.symm⟩
  · rw [Prod.mk.injEq, Prod.mk.injEq] at split
    exact absurd split.2.2.symm named

end

/-- Read from a text, only two kinds of parameters are not legible. -/
theorem parse?_legible (text : Text) (parameter : Parameter) (read : parse? text = some parameter)
    (notConst : ¬(parameter.isConst = false ∧ parameter.type = "const".toList ∧
      parameter.passing ≠ .byValue))
    (notHandle : ¬(parameter.isConst = true ∧ parameter.type.head? = some '@')) :
    parameter.Legible := by
  obtain ⟨inner, trimmed, name, noConst⟩ := parse?_inner text parameter read
  refine { parse?_canonical text parameter read with
    whole := fun empty => ?_
    notConst := fun plain some_char type => ?_
    notHandle := fun isConst head => notHandle ⟨isConst, head⟩ }
  · obtain ⟨value, unnamed⟩ := (behindType_empty parameter).mp empty
    rw [value, unnamed] at name
    have alone := splitName_unnamed inner _ _ trimmed name rfl
    rw [← alone] at name
    exact name
  · by_cases value : parameter.passing = .byValue
    · -- A name behind the type `const` would have been taken for a type behind the qualifier.
      have named : parameter.name ≠ [] := fun unnamed =>
        some_char ((behindType_empty parameter).mpr ⟨value, unnamed⟩)
      rw [value] at name
      obtain ⟨gap, shape⟩ := splitName_spaced inner _ _ trimmed name named
      obtain ⟨first, blanks, spaced⟩ := List.exists_cons_of_ne_nil gap.some_blank
      have blank : isBlank first = true := gap.blank first (by simp [spaced])
      have unread := noConst plain
      rw [shape, type, Text.after?_append, spaced, List.cons_append, Option.bind_some, Text.afterSome?,
        if_pos blank] at unread
      cases unread
    · exact notConst ⟨plain, type, value⟩

/-- In front of more the type `const` is taken for the qualifier. -/
theorem splitConst_const_type (parameter : Parameter) (nameable : Nameable parameter.name)
    (plain : parameter.isConst = false) (type : parameter.type = "const".toList)
    (some_char : parameter.behindType ≠ []) :
    (splitConst (attachHandles parameter.declaredText)).1 = true := by
  obtain ⟨rest, spaced⟩ := behindType_spaced parameter some_char
  have unmarked : '@' ∉ parameter.behindType := behindType_free nameable '@' (by decide)
  have shape : parameter.declaredText = "const".toList ++ ' ' :: rest := by
    rw [declaredText_shape, constText, plain, type, spaced]
    rfl
  have attached : attachHandles parameter.declaredText = parameter.declaredText := by
    refine (AllAttached.unmarked _ ?_).attached
    rw [shape, ← spaced, List.mem_append, not_or]
    exact ⟨by decide, unmarked⟩
  rw [attached, shape, splitConst, Text.after?_append]
  rfl

/-- A handle is pulled onto the qualifier in front of it. -/
theorem splitConst_handle_type (parameter : Parameter) (isConst : parameter.isConst = true)
    (handle : parameter.type.head? = some '@') :
    (splitConst (attachHandles parameter.declaredText)).1 = false := by
  obtain ⟨rest, type⟩ := List.head?_eq_some_iff.mp handle
  have shape : parameter.declaredText =
      "cons".toList ++ 't' :: ([' '] ++ '@' :: (rest ++ parameter.behindType)) := by
    rw [declaredText_shape, constText, isConst, type]
    rfl
  have front : attachHandles "cons".toList = "cons".toList := by decide
  have marked : attachHandles ([' '] ++ '@' :: (rest ++ parameter.behindType)) =
      ' ' :: '@' :: attachHandles (rest ++ parameter.behindType) := rfl
  have pulled (later : Text) : ∃ more, pullHandle (' ' :: '@' :: later) = '@' :: more :=
    ⟨_, pullHandle_detached _ later (List.cons_ne_nil _ _) rfl⟩
  obtain ⟨more, onto⟩ := pulled (attachHandles (rest ++ parameter.behindType))
  have attached : attachHandles parameter.declaredText = "const".toList ++ '@' :: more := by
    rw [shape, attachHandles_stop 't' (by decide) (by decide), front, attachHandles, if_pos (by decide),
      marked, onto]
    rfl
  rw [attached, splitConst, Text.after?_append]
  rfl

/-- In both cases what is read back differs in being constant. -/
theorem Canonical.misread {parameter : Parameter} (canonical : parameter.Canonical)
    (doubtful : (parameter.isConst = false ∧ parameter.type = "const".toList ∧
        parameter.behindType ≠ []) ∨
      (parameter.isConst = true ∧ parameter.type.head? = some '@'))
    (other : Parameter) (reread : parse? parameter.render = some other) :
    other.isConst ≠ parameter.isConst := by
  rw [canonical.parse?_render_declared] at reread
  obtain ⟨inner, const, _⟩ := ofDeclared?_parts _ _ _ reread
  rcases doubtful with ⟨plain, type, some_char⟩ | ⟨isConst, handle⟩
  · have marked := splitConst_const_type parameter canonical.nameable plain type some_char
    rw [const] at marked
    exact fun same => Bool.noConfusion (marked.symm.trans (same.trans plain))
  · have unmarked := splitConst_handle_type parameter isConst handle
    rw [const] at unmarked
    exact fun same => Bool.noConfusion (unmarked.symm.trans (same.trans isConst))

/-- A parameter that was read is read back from its rendered form, unless it is a reference to the type
`const` that is not constant itself, or it is constant and its type begins with a handle. -/
theorem rendered_read_back_iff (text : Text) (parameter : Parameter)
    (read : parse? text = some parameter) :
    parse? parameter.render = some parameter ↔
      ¬(parameter.isConst = false ∧ parameter.type = "const".toList ∧
          parameter.passing ≠ .byValue) ∧
        ¬(parameter.isConst = true ∧ parameter.type.head? = some '@') := by
  have canonical := parse?_canonical text parameter read
  constructor
  · intro reread
    constructor
    · rintro ⟨plain, type, marked⟩
      have some_char : parameter.behindType ≠ [] := fun empty =>
        marked ((behindType_empty parameter).mp empty).1
      exact canonical.misread (.inl ⟨plain, type, some_char⟩) parameter reread rfl
    · intro handle
      exact canonical.misread (.inr handle) parameter reread rfl
  · rintro ⟨notConst, notHandle⟩
    exact (parse?_legible text parameter read notConst notHandle).parse?_render

-- A handle inside of a type, a reference to `const` and a handle on a line of its own.
theorem rendered_read_back_handles :
    let list : Parameter :=
      ⟨false, "array<CBlob@ >".toList, .inputOutput, "list".toList, some "null".toList⟩
    let reference : Parameter := ⟨false, "const".toList, .input, ['a'], none⟩
    let handle : Parameter := ⟨true, ['@'], .byValue, ['a'], none⟩
    parse? "array<CBlob @> & list = null".toList = some list ∧ parse? list.render = some list ∧
      parse? "const&in a".toList = some reference ∧ parse? reference.render ≠ some reference ∧
      parse? "const\n@ a".toList = some handle ∧ parse? handle.render ≠ some handle := by
  intro list reference handle
  have listRead : parse? "array<CBlob @> & list = null".toList = some list := by decide
  have referenceRead : parse? "const&in a".toList = some reference := by decide
  have handleRead : parse? "const\n@ a".toList = some handle := by decide
  refine ⟨listRead, (rendered_read_back_iff _ _ listRead).mpr (by decide), referenceRead, ?_, handleRead, ?_⟩
  · exact fun reread => absurd ((rendered_read_back_iff _ _ referenceRead).mp reread) (by decide)
  · exact fun reread => absurd ((rendered_read_back_iff _ _ handleRead).mp reread) (by decide)

end Parameter

/-- If a pass that may drop items leaves a view of the list as it was, it drops none and keeps the view
of each. -/
theorem filterMap_view {α β : Type} (pass : α → Option α) (view : α → β) (list : List α)
    (same : (list.filterMap pass).map view = list.map view) :
    ∀ item ∈ list, ∃ kept, pass item = some kept ∧ view kept = view item := by
  induction list with
  | nil => exact List.forall_mem_nil _
  | cons first rest ih =>
      cases kept : pass first with
      | none =>
          have lengths := congrArg List.length same
          have bound := List.length_filterMap_le pass rest
          rw [List.filterMap_cons_none kept, List.length_map, List.length_map, List.length_cons] at lengths
          omega
      | some other =>
          rw [List.filterMap_cons_some kept, List.map_cons, List.map_cons, List.cons.injEq] at same
          exact List.forall_mem_cons.mpr ⟨⟨other, kept, same.1⟩, ih same.2⟩

namespace Signature

theorem named_views (parameters : List Parameter) :
    (parameters.mapIdx Parameter.named).map Parameter.isConst = parameters.map Parameter.isConst := by
  refine List.ext_getElem (by simp) fun index _ _ => ?_
  rw [List.getElem_map, List.getElem_mapIdx, List.getElem_map, Parameter.named]
  split <;> rfl

/-- A signature that was read is read back from its rendered form exactly if none of its parameters is
of the type `const` without being constant, or constant with a handle in front of its type. -/
theorem parse_render_iff (list : Text) :
    parse (parse list).render = parse list ↔
      ∀ parameter ∈ (parse list).parameters,
        ¬(parameter.isConst = false ∧ parameter.type = "const".toList) ∧
          ¬(parameter.isConst = true ∧ parameter.type.head? = some '@') := by
  constructor
  · intro same parameter member
    have views : ((parse list).parameters.filterMap (Parameter.parse? ∘ Parameter.render)).map
        Parameter.isConst = (parse list).parameters.map Parameter.isConst := by
      have parameters := congrArg Signature.parameters same
      rw [parse, splitParameters_render, labels, List.filterMap_map] at parameters
      rw [← named_views]
      exact congrArg (List.map Parameter.isConst) parameters
    obtain ⟨other, reread, isConst⟩ := filterMap_view _ _ _ views parameter member
    rw [Function.comp_apply] at reread
    obtain ⟨canonical, named⟩ := parse_parameters list parameter member
    constructor
    · rintro ⟨plain, type⟩
      exact canonical.misread (.inl ⟨plain, type, Parameter.behindType_named parameter named⟩) other reread isConst
    · intro handle
      exact canonical.misread (.inr handle) other reread isConst
  · intro proper
    refine parse_render list fun parameter member => ?_
    obtain ⟨canonical, named⟩ := parse_parameters list parameter member
    have legible : parameter.Legible := { canonical with
      whole := fun empty => absurd empty (Parameter.behindType_named parameter named)
      notConst := fun plain _ type => (proper parameter member).1 ⟨plain, type⟩
      notHandle := fun isConst head => (proper parameter member).2 ⟨isConst, head⟩ }
    exact legible.parse?_render

/-- A signature that was read is read back from its rendered form, placeholders and defaults included,
if no parameter is of the type `const` or of one that begins with a handle. -/
theorem signature_read_back (list : Text)
    (proper : ∀ parameter ∈ (parse list).parameters,
      ¬(parameter.type = "const".toList ∨ parameter.type.head? = some '@')) :
    parse (parse list).render = parse list := by
  refine (parse_render_iff list).mpr fun parameter member => ?_
  have apart := not_or.mp (proper parameter member)
  exact ⟨fun const => apart.1 const.2, fun handle => apart.2 handle.2⟩

-- Two pieces declare nothing, two parameters get a name, a bracket is closed by one of another kind,
-- and the last piece ends inside of an open bracket.
theorem signature_read_back_malformed :
    let list := "const string &in, , CBlob @, &, int = g(1, [2), 3), Vec2f&v, dictionary<string, int".toList
    let rendered := "const string &in a, CBlob@ b, int c = g(1, [2), 3), Vec2f &inout v, ".toList ++
      "dictionary<string, int".toList
    (parse list).render = rendered ∧ parse rendered = parse list := by
  intro list rendered
  have shown : (parse list).render = rendered := by decide +kernel
  have same := signature_read_back list (by decide)
  rw [shown] at same
  exact ⟨shown, same⟩

end Signature

end ScriptSense
