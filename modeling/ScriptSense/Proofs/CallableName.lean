import ScriptSense.Resolution
import ScriptSense.Proofs.Chain
import ScriptSense.Proofs.Overlay

/-!
Functions by the names they show. A function that was declared under a namespace is found by its label,
with or without a leading `::`: the chain in front of a cursor reads the label as one name, and cutting
that name at its last `::` gives the key under which the function is kept.
-/
namespace ScriptSense

namespace Text

theorem splitLastColons?_none (accept : Text → Bool) (text : Text) (plain : ':' ∉ text) :
    splitLastColons? accept text = none := by
  induction text with
  | nil => rfl
  | cons first rest ih =>
      rw [List.mem_cons, not_or] at plain
      rw [splitLastColons?, ih plain.2]
      exact fun _ colon _ => plain.1 colon.symm

theorem splitLastColons?_name (accept : Text → Bool) (lead name : Text) (plain : ':' ∉ name)
    (accepted : accept name = true) :
    splitLastColons? accept (lead ++ (colons ++ name)) = some (lead, name) := by
  induction lead with
  | nil =>
      have alone : splitLastColons? accept (':' :: name) = none := by
        rw [splitLastColons?, splitLastColons?_none accept name plain]
        rintro right _ rfl
        exact plain List.mem_cons_self
      change splitLastColons? accept (':' :: ':' :: name) = _
      rw [splitLastColons?, alone]
      exact if_pos accepted
  | cons first lead ih =>
      rw [List.cons_append, splitLastColons?.eq_def]
      simp only [ih]

theorem dropColons_other (text : Text) (other : text.head? ≠ some ':') : dropColons text = text := by
  rw [dropColons]
  rintro rest rfl
  exact other rfl

end Text

inductive IsNamespace : Option Text → Prop where
  | absent : IsNamespace none
  | joined (words : List Text) (identifiers : ∀ word ∈ words, Text.isIdentifier word = true) :
      IsNamespace (some (colons.intercalate words))

namespace FunctionTable

inductive Declared : FunctionTable → Prop where
  | empty : Declared Registry.empty
  | addSignature {table : FunctionTable} (declared : Declared table) (qualifier : Option Text)
      (type name : Text) (signature : Signature) (isNamespace : IsNamespace qualifier)
      (identifier : Text.isIdentifier name = true) :
      Declared (FunctionTable.addSignature qualifier type name signature table)

end FunctionTable

inductive Overlay.Declared : Overlay → Prop where
  | ofTable {base : FunctionTable} (declared : base.Declared) : Declared (Overlay.ofTable base)
  | addSignature {overlay : Overlay} (declared : Declared overlay) (type name : Text)
      (signature : Signature) (identifier : Text.isIdentifier name = true) :
      Declared (overlay.addSignature type name signature)

structure Addressed (key : Text) (function : Callable) : Prop where
  identifier : Text.isIdentifier function.name = true
  kept : ∃ qualifier, IsNamespace qualifier ∧ function.kind = .function qualifier ∧
    key = functionKey qualifier function.name

theorem Addressed.addSignature {key : Text} {function : Callable} (addressed : Addressed key function)
    (signature : Signature) : Addressed key (function.addSignature signature) where
  identifier := addressed.identifier
  kept := addressed.kept

structure Addresses (table : FunctionTable) : Prop where
  every : table.Every Addressed
  distinct : table.keys.Nodup

namespace Addresses

theorem empty : Addresses Registry.empty where
  every := Registry.every_empty _
  distinct := List.nodup_nil

theorem addSignature {table : FunctionTable} (addresses : Addresses table) (qualifier : Option Text)
    (type name : Text) (signature : Signature) (isNamespace : IsNamespace qualifier)
    (identifier : Text.isIdentifier name = true) :
    Addresses (FunctionTable.addSignature qualifier type name signature table) where
  every := Registry.every_update _ _ _ _ _ addresses.every ⟨identifier, qualifier, isNamespace, rfl, rfl⟩
    fun _ addressed => addressed.addSignature signature
  distinct := Registry.nodup_keys_update _ _ _ _ addresses.distinct

theorem insert {table : FunctionTable} (addresses : Addresses table) (key : Text) (function : Callable)
    (addressed : Addressed key function) : Addresses (table.insert key function) where
  every := Registry.every_update _ _ _ _ _ addresses.every addressed fun _ _ => addressed
  distinct := Registry.nodup_keys_update _ _ _ _ addresses.distinct

theorem ofDeclared {table : FunctionTable} (declared : table.Declared) : Addresses table := by
  induction declared with
  | empty => exact .empty
  | addSignature _ qualifier type name signature isNamespace identifier ih =>
      exact ih.addSignature qualifier type name signature isNamespace identifier

end Addresses

namespace Overlay.Declared

theorem base {overlay : Overlay} (declared : overlay.Declared) : Addresses overlay.base := by
  induction declared with
  | ofTable declared => exact .ofDeclared declared
  | addSignature _ _ _ _ _ ih => exact ih

theorem own {overlay : Overlay} (declared : overlay.Declared) : Addresses overlay.own := by
  induction declared with
  | ofTable => exact .empty
  | @addSignature overlay earlier type name signature identifier ih =>
      have held : Addresses (overlay.ownWith (functionKey none name)) := by
        rw [ownWith]
        split
        · exact ih
        · split
          · next documented found =>
              exact ih.insert _ documented (earlier.base.every _ (Registry.mem_of_get? _ _ _ found))
          · exact ih
      exact held.addSignature none type name signature .absent identifier

theorem ofScripts {base : FunctionTable} (declared : base.Declared) (scripts : List Script)
    (identifiers : ∀ script ∈ scripts, ∀ header ∈ script.functions,
      Text.isIdentifier header.name = true) : (Overlay.ofScripts base scripts).Declared := by
  have named : ∀ header ∈ scripts.flatMap Script.functions, Text.isIdentifier header.name = true := by
    intro header member
    obtain ⟨script, listed, found⟩ := List.mem_flatMap.mp member
    exact identifiers script listed header found
  rw [ofScripts_adds]
  generalize scripts.flatMap Script.functions = headers at named
  induction headers using List.reverseRecOn with
  | nil => exact .ofTable declared
  | append_singleton headers last ih =>
      rw [List.foldl_append]
      refine .addSignature (ih ?_) last.type last.name last.signature ?_
      · exact fun header member => named header (List.mem_append_left _ member)
      · exact named last (List.mem_append_right _ List.mem_cons_self)

/-- A listed function is the one that is found under its key. -/
theorem found {overlay : Overlay} (declared : overlay.Declared) (function : Callable)
    (listed : function ∈ overlay.functions) :
    ∃ key, Addressed key function ∧
      (overlay.own.get? key).or (overlay.base.get? key) = some function := by
  rcases List.mem_append.mp listed with own | documented
  · obtain ⟨entry, member, rfl⟩ := List.mem_map.mp own
    refine ⟨entry.1, declared.own.every entry member, ?_⟩
    rw [Registry.get?_of_mem _ declared.own.distinct entry member, Option.some_or]
  · obtain ⟨entry, kept, rfl⟩ := List.mem_map.mp documented
    obtain ⟨member, shown⟩ := List.mem_filter.mp kept
    have absent : overlay.own.get? entry.1 = none := by
      simpa [Registry.contains_get?] using shown
    refine ⟨entry.1, declared.base.every entry member, ?_⟩
    rw [absent, Option.none_or, Registry.get?_of_mem _ declared.base.distinct entry member]

end Overlay.Declared

/-- A name with an open parenthesis behind it is a call of its own. -/
theorem OpenCall.ofText?_name (context name : Text) (detached : Chain.Detached context)
    (inName : Chain.InName name) (named : name.any isNameChar = true) :
    ofText? (context ++ name ++ ['(']) = some ⟨[.call name], [[]]⟩ := by
  have isName : Chain.IsName name := by
    refine ⟨?_, inName.chars, inName.part⟩
    rintro rfl
    cases named
  have plain : Folds parens name name := Folds.plain fun c member => name_text_plain c (inName.chars c member)
  have outer := Chain.detached_folded context detached
  obtain ⟨base, layers, folded, receiver⟩ := fold_open (context ++ name) [] [] Folds.nil
  have access := Chain.takeSegment_access (foldedText parens context) name .none outer.toNameBorder isName
  rw [Gap.none, List.append_nil, ← foldedText_append plain, ← receiver] at access
  have noDot := outer.dot
  rw [Text.trimEnd, Text.dropEndWhile, List.getLast?_reverse] at noDot
  have read : Chain.segments (Folded.text parens ⟨base, layers⟩).reverse = [.access name] := by
    rw [Chain.segments_end _ (by rw [access]; exact noDot), access]
  rw [ofText?, folded]
  simp [read, Segment.asCall, Segment.name, Chain.named?, Segment.isNamed, named, Text.trim, Text.trimEnd,
    Text.trimStart, Text.dropEndWhile]

theorem namespace_head (words : List Text) (identifiers : ∀ word ∈ words, Text.isIdentifier word = true) :
    (colons.intercalate words).head? ≠ some ':' := by
  cases words with
  | nil => exact nofun
  | cons word rest =>
      obtain ⟨some_char, chars⟩ := Text.identifier_chars word (identifiers word List.mem_cons_self)
      obtain ⟨first, others, rfl⟩ := List.exists_cons_of_ne_nil some_char
      have other : first ≠ ':' := kept_ne isNameChar first ':' (chars first List.mem_cons_self) rfl
      cases rest with
      | nil => simpa using other
      | cons next rest => simpa [List.intercalate_cons_cons] using other

namespace Addressed

variable {key : Text} {function : Callable} (addressed : Addressed key function)
include addressed

theorem no_colon : ':' ∉ function.name := by
  intro colon
  have name := (Text.identifier_chars function.name addressed.identifier).2 ':' colon
  exact absurd name (by decide)

/-- A name that shows the function is its bare name, or its bare name behind a `::` whose left side
names the namespace of its key. -/
theorem shown_cases (written : Text)
    (shown : written = function.label ∨ written = colons ++ function.label) :
    written = function.name ∧ key = functionKey none function.name ∨
      ∃ lead, Chain.InName lead ∧ written = lead ++ (colons ++ function.name) ∧
        key = qualified (Text.dropColons lead) function.name := by
  obtain ⟨qualifier, isNamespace, kind, rfl⟩ := addressed.kept
  cases isNamespace with
  | absent =>
      have label : function.label = function.name := by rw [Callable.label, kind]
      rw [label] at shown
      rcases shown with bare | rooted
      · exact .inl ⟨bare, rfl⟩
      · exact .inr ⟨[], Chain.inName_nil, rooted, rfl⟩
  | joined words identifiers =>
      have label : function.label = colons.intercalate words ++ (colons ++ function.name) := by
        rw [Callable.label, kind, ← List.append_assoc]
        rfl
      have inName := Chain.inName_joined words identifiers
      have whole : Text.dropColons (colons.intercalate words) = colons.intercalate words :=
        Text.dropColons_other _ (namespace_head words identifiers)
      rw [label] at shown
      rcases shown with bare | rooted
      · exact .inr ⟨_, inName, bare, by rw [whole]; rfl⟩
      · refine .inr ⟨colons ++ colons.intercalate words, Chain.inName_colons.append inName, ?_, ?_⟩
        · rw [rooted, List.append_assoc]
        · change _ = qualified (Text.dropColons (colons.intercalate words)) function.name
          rw [whole]
          rfl

theorem shown_inName (written : Text)
    (shown : written = function.label ∨ written = colons ++ function.label) :
    Chain.InName written ∧ written.any isNameChar = true := by
  have name := Chain.inName_identifier function.name addressed.identifier
  obtain ⟨some_char, chars⟩ := Text.identifier_chars function.name addressed.identifier
  obtain ⟨first, rest, shape⟩ := List.exists_cons_of_ne_nil some_char
  have inFunction : first ∈ function.name := shape ▸ List.mem_cons_self
  rcases addressed.shown_cases written shown with ⟨rfl, _⟩ | ⟨lead, inName, rfl, _⟩
  · exact ⟨name, List.any_eq_true.mpr ⟨first, inFunction, chars first inFunction⟩⟩
  · refine ⟨inName.append (Chain.inName_colons.append name), List.any_eq_true.mpr ⟨first, ?_, ?_⟩⟩
    · exact List.mem_append_right _ (List.mem_append_right _ inFunction)
    · exact chars first inFunction

/-- Cutting such a name at its last `::` leads to the key. -/
theorem splitQualified_shown (written : Text)
    (shown : written = function.label ∨ written = colons ++ function.label) :
    functionKey (Resolver.splitQualified written).1 (Resolver.splitQualified written).2 = key := by
  rcases addressed.shown_cases written shown with ⟨rfl, bare⟩ | ⟨lead, _, rfl, joined⟩
  · rw [Resolver.splitQualified, Text.splitLastColons?_none _ _ addressed.no_colon, bare]
  · rw [Resolver.splitQualified, Text.splitLastColons?_name _ lead _ addressed.no_colon rfl, joined]
    dsimp only
    split
    · next nothing =>
        rw [List.isEmpty_iff.mp nothing]
        rfl
    · rfl

end Addressed

/-- Every function of an overlay is called by the name that it shows, with or without a leading `::`,
unless that is the name of a documented object with a constructor. -/
theorem Resolver.callable?_shown (resolver : Resolver) (declared : resolver.overlay.Declared)
    (function : Callable) (listed : function ∈ resolver.overlay.functions) (written context : Text)
    (shown : written = function.label ∨ written = colons ++ function.label)
    (detached : Chain.Detached context) :
    ∃ call, OpenCall.ofText? (context ++ written ++ ['(']) = some call ∧
      call.chain = [.call written] ∧
      resolver.callable? call.chain =
        some (((resolver.knowledge.object? written).bind (·.constructor)).getD function) := by
  obtain ⟨key, addressed, found⟩ := declared.found function listed
  obtain ⟨inName, named⟩ := addressed.shown_inName written shown
  have free : resolver.freeFunction? written = some function := by
    rw [freeFunction?, Overlay.function?, FunctionTable.function?, FunctionTable.function?,
      addressed.splitQualified_shown written shown, found]
  refine ⟨_, OpenCall.ofText?_name context written detached inName named, rfl, ?_⟩
  rw [callable?, walk?, first?, free, constructor?]
  cases (resolver.knowledge.object? written).bind (·.constructor) with
  | none => rfl
  | some constructor => rfl

-- Two namespaces deep and behind a leading `::`, in a table to which a script added a function.
theorem Resolver.callable?_shown_rooted :
    let words := ["Maths".toList, "Trig".toList]
    let base := FunctionTable.addSignature (some (colons.intercalate words)) "f32".toList "Sin".toList
      Signature.empty Registry.empty
    let overlay := (Overlay.ofTable base).addSignature "void".toList "print".toList Signature.empty
    let resolver : Resolver := ⟨Knowledge.empty, overlay, Scope.ofText [] []⟩
    let sin := (Callable.function (some "Maths::Trig".toList) "f32".toList "Sin".toList).addSignature
      Signature.empty
    overlay.Declared ∧ sin ∈ overlay.functions ∧
      ∃ call, OpenCall.ofText? "x = ::Maths::Trig::Sin(".toList = some call ∧
        call.chain = [.call "::Maths::Trig::Sin".toList] ∧ resolver.callable? call.chain = some sin := by
  intro words base overlay resolver sin
  have table : base.Declared :=
    .addSignature .empty _ "f32".toList "Sin".toList Signature.empty (.joined words (by decide +kernel))
      (by decide +kernel)
  have declared : overlay.Declared :=
    .addSignature (.ofTable table) "void".toList "print".toList Signature.empty (by decide +kernel)
  have listed : sin ∈ overlay.functions := by decide +kernel
  exact ⟨declared, listed, Resolver.callable?_shown resolver declared sin listed "::Maths::Trig::Sin".toList
    "x = ".toList (.inr (by decide +kernel)) ⟨⟨by decide, by decide⟩, by decide⟩⟩

end ScriptSense
