import ScriptSense.Proofs.ManualLine
import ScriptSense.Proofs.Members
import ScriptSense.Proofs.Overload

/-!
Where the name of a manual line ends. A name reaches up to the last parenthesis of the word behind the
type, so a call in the default of a first parameter is cut off with the name if no blank stands in front
of it. The name and the namespace are free of parentheses exactly if that word has one only.
-/
namespace ScriptSense

namespace Object

def Offers (object : Object) (name : Text) (signature : Signature) : Prop :=
  ∃ method, object.method? name = some method ∧ signature ∈ method.signatures

theorem addMethod_offers (type added : Text) (overload : Signature) (object : Object) (name : Text)
    (signature : Signature) :
    (object.addMethod type added overload).Offers name signature ↔
      object.Offers name signature ∨ added = name ∧ overload = signature := by
  simp only [Offers, method?, addMethod, Registry.get?_update]
  by_cases here : added = name
  · subst here
    simp only [if_true, Option.some.injEq, exists_eq_left', Callable.addSignature,
      Callable.mem_insertOverload, true_and]
    rw [or_comm, eq_comm]
    refine or_congr_left ?_
    cases object.methods.get? added with
    | none => simp [Callable.method]
    | some method => simp
  · simp [here]

theorem Built.overloaded {object : Object} (built : object.Built) (name : Text) (method : Callable)
    (found : object.method? name = some method) : method.signatures ≠ [] := by
  have added (signature : Signature) (callable : Callable) :
      (callable.addSignature signature).signatures ≠ [] :=
    List.ne_nil_of_mem ((Callable.mem_insertOverload signature signature _).mpr (.inl rfl))
  have every : object.methods.Every fun _ callable => callable.signatures ≠ [] := by
    clear found
    induction built with
    | ofName name => exact Registry.every_empty _
    | addProperty _ type name ih => exact ih
    | addMethod _ type name signature ih =>
        exact Registry.every_update _ _ _ _ _ ih (added signature _) fun callable _ =>
          added signature callable
    | addConstructor _ signature ih => exact ih
  exact every (name, method) (Registry.mem_of_get? name method object.methods found)

end Object

namespace Manual

/-- What ends a line behind a parenthesis ends it behind a later one as well. -/
def Resumes (next : Text → Option Text) : Prop :=
  ∀ lead behind, (next (lead ++ '(' :: behind)).isSome = true → (next behind).isSome = true

theorem closed?_front (front rest : Text) (closes : (closed? (front ++ '(' :: rest)).isSome = true) :
    (closed? front).isSome = true := by
  cases front with
  | nil => cases closes
  | cons last front =>
      rw [closed?.eq_def] at closes
      split at closes
      · next reversed shape =>
          obtain ⟨rfl, rfl⟩ := List.cons.inj shape
          split at closes
          · cases closes
          · next oneLine =>
              rw [closed?, if_neg]
              · rfl
              · simp only [List.contains_eq_mem, decide_eq_true_eq] at oneLine ⊢
                exact fun member => oneLine (List.mem_append_left _ member)
      · cases closes

theorem upToEnd?_resumes : Resumes upToEnd? := by
  intro lead behind read
  rw [upToEnd?, List.reverse_append, List.reverse_cons, List.append_assoc, List.singleton_append] at read
  exact closed?_front behind.reverse lead.reverse read

theorem upToEndOrConst?_resumes : Resumes upToEndOrConst? := by
  intro lead behind read
  rw [upToEndOrConst?, Option.isSome_or, Bool.or_eq_true] at read ⊢
  refine read.imp (upToEnd?_resumes lead behind) fun const => ?_
  obtain ⟨list, read⟩ := Option.isSome_iff_exists.mp const
  obtain ⟨marked, qualified, spaced⟩ := Option.bind_eq_some_iff.mp read
  obtain ⟨closing, skipped, closes⟩ := Option.bind_eq_some_iff.mp spaced
  rw [List.reverse_append, List.reverse_cons, List.append_assoc, List.singleton_append] at qualified
  obtain ⟨more, shape, rfl⟩ := Text.after?_apart '(' _ _ _ _ (by decide) qualified
  cases more with
  | nil => cases skipped
  | cons blank more =>
      rw [List.cons_append, Text.afterSome?] at skipped
      split at skipped
      · next isBlank =>
          rw [Text.dropWhile_stop _ '(' (by decide), Option.some.injEq] at skipped
          have closesFront := closed?_front _ _ (by rw [skipped, closes]; rfl)
          rw [shape, Text.after?_append, Option.bind_some, Text.afterSome?, if_pos isBlank]
          exact closesFront
      · cases skipped

section
variable {α : Type} (next : Text → Option α)

theorem splitParen?_isSome (word rest : Text) (visible : ∀ c ∈ word, isBlank c = false)
    (read : (next rest).isSome = true) : (splitParen? next (word ++ '(' :: rest)).isSome = true := by
  induction word with
  | nil =>
      rw [List.nil_append, splitParen?, if_neg (by decide)]
      cases splitParen? next rest with
      | some later => rfl
      | none => rw [if_pos rfl, Option.isSome_map, read]
  | cons first word ih =>
      rw [List.forall_mem_cons] at visible
      obtain ⟨⟨later, found⟩, split⟩ := Option.isSome_iff_exists.mp (ih visible.2)
      rw [List.cons_append, splitParen?, visible.1, split]
      rfl

end

theorem headWord_paren (text : Text) (member : '(' ∈ headWord text) :
    ∃ lead behind, text = lead ++ '(' :: behind ∧ ∀ c ∈ lead, isBlank c = false := by
  obtain ⟨lead, inWord, split⟩ := List.append_of_mem member
  refine ⟨lead, inWord ++ text.dropWhile (!isBlank ·), ?_, fun c inside => ?_⟩
  · rw [← List.cons_append, ← List.append_assoc, ← split, headWord, List.takeWhile_append_dropWhile]
  · have visible := List.mem_takeWhile_imp (split ▸ List.mem_append_left _ inside)
    simpa using visible

inductive SplitAtLast (next : Text → Option Text) (text word found : Text) : Prop where
  | intro (behind : Text) (shape : text = word ++ '(' :: behind)
      (visible : ∀ c ∈ word, isBlank c = false) (last : '(' ∉ headWord behind)
      (read : next behind = some found)

theorem SplitAtLast.prepend {next : Text → Option Text} {text word found : Text}
    (split : SplitAtLast next text word found) (lead : Text) (inLead : ∀ c ∈ lead, isBlank c = false) :
    SplitAtLast next (lead ++ text) (lead ++ word) found := by
  obtain ⟨behind, rfl, visible, last, read⟩ := split
  exact ⟨behind, by rw [List.append_assoc], List.forall_mem_append.mpr ⟨inLead, visible⟩, last, read⟩

section
variable (next : Text → Option Text) (resumes : Resumes next)
include resumes

/-- What ends the line behind the split would end it behind any later parenthesis of the word. -/
theorem splitParen?_latest (text word found : Text) (read : splitParen? next text = some (word, found)) :
    SplitAtLast next text word found := by
  induction text generalizing word with
  | nil => cases read
  | cons first text ih =>
      rw [splitParen?] at read
      split at read
      · cases read
      · next visible =>
          split at read
          · next later _ shape =>
              cases read
              exact (ih later shape).prepend [first] (by simpa using visible)
          · next noLater =>
              split at read
              · next paren =>
                  obtain ⟨_, accepted, same⟩ := Option.map_eq_some_iff.mp read
                  cases same
                  refine ⟨text, by rw [paren, List.nil_append], List.forall_mem_nil _, fun member => ?_, accepted⟩
                  obtain ⟨lead, behind, rfl, inLead⟩ := headWord_paren text member
                  have resumed := resumes lead behind (by rw [accepted]; rfl)
                  have later := splitParen?_isSome next lead behind inLead resumed
                  rw [noLater] at later
                  cases later
              · cases read

theorem nameAndParameters?_latest (text name found : Text)
    (read : nameAndParameters? next text = some (name, found)) : SplitAtLast next text name found := by
  cases text with
  | nil => cases read
  | cons first text =>
      rw [nameAndParameters?] at read
      split at read
      · cases read
      · next visible =>
          obtain ⟨⟨word, parameters⟩, split, same⟩ := Option.map_eq_some_iff.mp read
          cases same
          exact (splitParen?_latest next resumes text word _ split).prepend [first] (by simpa using visible)

end

inductive Written : Text → Option Text → Text → Prop where
  | plain (name : Text) : Written name none name
  | rooted (name : Text) : Written ("::".toList ++ name) none name
  | inside (qualifier : Text) {front name : Text} (written : Written front none name) :
      Written (qualifier ++ "::".toList ++ front) (some qualifier) name

def Unopened (qualifier : Option Text) (name : Text) : Prop :=
  '(' ∉ name ∧ ∀ text, qualifier = some text → '(' ∉ text

theorem Written.unopened_iff {front name : Text} {qualifier : Option Text}
    (written : Written front qualifier name) : '(' ∉ front ↔ Unopened qualifier name := by
  induction written with
  | plain name => simp [Unopened]
  | rooted name => simp [Unopened]
  | inside qualifier written ih =>
      simp only [Unopened, Option.some.injEq, forall_eq', List.mem_append, not_or] at ih ⊢
      rw [ih]
      have colons : '(' ∉ "::".toList := by decide
      tauto

/-- A text with a callable at its start: the parameters stand behind the last parenthesis of the first
word, and all that is in front of it is the name with its namespace. -/
inductive CutAtLast (text : Text) (qualifier : Option Text) (name parameters : Text) : Prop where
  | intro (front : Text) (written : Written front qualifier name)
      (split : SplitAtLast upToEndOrConst? text front parameters)

theorem CutAtLast.unopened_iff {text : Text} {qualifier : Option Text} {name parameters : Text}
    (cut : CutAtLast text qualifier name parameters) :
    Unopened qualifier name ↔ (headWord text).count '(' = 1 := by
  obtain ⟨front, written, behind, rfl, visible, last, _⟩ := cut
  have word : headWord (front ++ '(' :: behind) = front ++ '(' :: headWord behind := by
    rw [headWord_word front _ visible]
    exact congrArg (front ++ ·) (headWord_word ['('] behind (by decide))
  rw [← written.unopened_iff, word, List.count_append, List.count_cons_self,
    List.count_eq_zero_of_not_mem last, ← List.count_eq_zero]
  omega

theorem CutAtLast.inside {qualifier right name parameters : Text}
    (cut : CutAtLast right none name parameters) (visible : ∀ c ∈ qualifier, isBlank c = false) :
    CutAtLast (qualifier ++ "::".toList ++ right) (some qualifier) name parameters := by
  obtain ⟨front, written, split⟩ := cut
  have colons : ∀ c ∈ "::".toList, isBlank c = false := by decide
  exact ⟨_, .inside qualifier written, split.prepend _ (List.forall_mem_append.mpr ⟨visible, colons⟩)⟩

theorem globalName?_cut (text name parameters : Text)
    (read : globalName? upToEndOrConst? text = some (name, parameters)) :
    CutAtLast text none name parameters := by
  rcases Option.or_eq_some_iff.mp read with rooted | ⟨_, plain⟩
  · obtain ⟨rest, colons, named⟩ := Option.bind_eq_some_iff.mp rooted
    have split := nameAndParameters?_latest upToEndOrConst? upToEndOrConst?_resumes rest name parameters named
    rw [Text.after?_some _ _ _ colons]
    exact ⟨_, .rooted name, split.prepend _ (by decide)⟩
  · exact ⟨name, .plain name, nameAndParameters?_latest _ upToEndOrConst?_resumes text name parameters plain⟩

inductive Declares (line : Text) (qualifier : Option Text) (type name : Text) (signature : Signature) :
    Prop where
  | intro (text parameters : Text) (typed : firstWord? line = some (type, text))
      (cut : CutAtLast text qualifier name parameters) (parsed : signature = Signature.parse parameters)

def nameWord (line : Text) : Text := ((firstWord? line).map fun split => headWord split.2).getD []

theorem Declares.unopened_iff {line : Text} {qualifier : Option Text} {type name : Text}
    {signature : Signature} (declares : Declares line qualifier type name signature) :
    Unopened qualifier name ↔ (nameWord line).count '(' = 1 := by
  obtain ⟨text, parameters, typed, cut, _⟩ := declares
  rw [cut.unopened_iff, nameWord, typed]
  rfl

theorem functionLine?_declares (line : Text) (found : FunctionLine)
    (read : functionLine? line = some found) :
    Declares line found.qualifier found.type found.name found.signature := by
  obtain ⟨⟨type, text⟩, typed, named⟩ := Option.bind_eq_some_iff.mp read
  obtain ⟨⟨qualifier, name, parameters⟩, chosen, same⟩ := Option.bind_eq_some_iff.mp named
  cases same
  refine ⟨text, parameters, typed, ?_, rfl⟩
  rcases Option.or_eq_some_iff.mp chosen with inNamespace | ⟨_, outside⟩
  · obtain ⟨⟨left, right⟩, member, accepted⟩ := List.exists_of_findSome?_eq_some inNamespace
    obtain ⟨_, inRight, same⟩ := Option.map_eq_some_iff.mp accepted
    cases same
    obtain ⟨rfl, visible⟩ := colonSplits_split text left right member
    exact (globalName?_cut right name parameters inRight).inside visible
  · obtain ⟨_, accepted, same⟩ := Option.map_eq_some_iff.mp outside
    cases same
    exact globalName?_cut text name parameters accepted

theorem hookLine?_declares (line : Text) (hook : Callable) (read : hookLine? line = some hook) :
    ∃ signature, hook = Callable.hook hook.type hook.name signature ∧
      Declares line none hook.type hook.name signature := by
  obtain ⟨⟨type, text⟩, typed, named⟩ := Option.bind_eq_some_iff.mp read
  obtain ⟨⟨name, parameters⟩, accepted, same⟩ := Option.bind_eq_some_iff.mp named
  cases same
  obtain ⟨behind, shape, visible, last, closes⟩ :=
    nameAndParameters?_latest upToEnd? upToEnd?_resumes text name parameters accepted
  have read : upToEndOrConst? behind = some parameters := by rw [upToEndOrConst?, closes, Option.some_or]
  exact ⟨_, rfl, text, parameters, typed, ⟨name, .plain name, behind, shape, visible, last, read⟩, rfl⟩

theorem methodLine?_declares (line type name : Text) (signature : Signature)
    (read : methodLine? line = some (type, name, signature)) :
    Declares line none type name signature := by
  obtain ⟨⟨found, text⟩, typed, named⟩ := Option.bind_eq_some_iff.mp read
  obtain ⟨⟨other, parameters⟩, accepted, same⟩ := Option.bind_eq_some_iff.mp named
  cases same
  exact ⟨text, parameters, typed, globalName?_cut text name parameters accepted, rfl⟩

def declaredMethod? (line : Text) : Option (Text × Text × Signature) :=
  match constructorLine? line with
  | some _ => none
  | none => methodLine? line

theorem declaredMethod?_declares (line type name : Text) (signature : Signature)
    (read : declaredMethod? line = some (type, name, signature)) :
    Declares line none type name signature := by
  rw [declaredMethod?] at read
  split at read
  · cases read
  · exact methodLine?_declares line type name signature read

theorem addMember_built (object : Object) (line : Text) (built : object.Built) :
    (addMember object line).Built := by
  rw [addMember]
  split
  · next signature _ => exact .addConstructor built signature
  · split
    · next type name signature _ => exact .addMethod built type name signature
    · split
      · next type name _ => exact .addProperty built type name
      · exact built

theorem object_built (owner text : Text) : (object owner text).Built := by
  rw [object]
  induction declarationLines text using List.reverseRecOn with
  | nil => exact .ofName owner
  | append_singleton lines line ih =>
      rw [List.foldl_append]
      exact addMember_built _ line ih

theorem addMember_offers (object : Object) (line name : Text) (signature : Signature) :
    (addMember object line).Offers name signature ↔
      object.Offers name signature ∨ ∃ type, declaredMethod? line = some (type, name, signature) := by
  rw [addMember, declaredMethod?]
  cases constructorLine? line with
  | some signature => simp [Object.Offers, Object.method?, Object.addConstructor]
  | none =>
      cases methodLine? line with
      | some declared =>
          obtain ⟨type, found, overload⟩ := declared
          rw [Object.addMethod_offers]
          simp only [Option.some.injEq, Prod.mk.injEq, exists_eq_left']
      | none =>
          cases wordAndLast? line with
          | some property => simp [Object.Offers, Object.method?, Object.addProperty]
          | none => simp

/-- The overloads of an object's methods are those that lines of its file declare. -/
theorem object_offers (owner text name : Text) (signature : Signature) :
    (object owner text).Offers name signature ↔
      ∃ line ∈ declarationLines text, ∃ type, declaredMethod? line = some (type, name, signature) := by
  rw [object]
  induction declarationLines text using List.reverseRecOn with
  | nil => simp [Object.Offers, Object.method?, Object.ofName, Registry.get?, Registry.empty]
  | append_singleton lines line ih =>
      rw [List.foldl_append, List.foldl_cons, List.foldl_nil, addMember_offers, ih]
      simp only [List.mem_append, List.mem_singleton, or_and_right, exists_or, exists_eq_left]

/-- Functions, hooks and methods are cut at the last parenthesis of the word behind the type, so their
name and namespace are free of parentheses exactly if it is the only one there. -/
theorem name_cut_at_last_paren (line owner text : Text) :
    (∀ found, functionLine? line = some found →
      Declares line found.qualifier found.type found.name found.signature ∧
        (Unopened found.qualifier found.name ↔ (nameWord line).count '(' = 1)) ∧
    (∀ hook, hookLine? line = some hook →
      ∃ signature, hook = Callable.hook hook.type hook.name signature ∧
        Declares line none hook.type hook.name signature ∧
        (Unopened none hook.name ↔ (nameWord line).count '(' = 1)) ∧
    (line ∈ declarationLines text → ∀ type name signature,
      declaredMethod? line = some (type, name, signature) →
        (object owner text).Offers name signature ∧ Declares line none type name signature ∧
          (Unopened none name ↔ (nameWord line).count '(' = 1)) ∧
    ∀ name method, (object owner text).method? name = some method →
      method.name = name ∧ method.signatures ≠ [] ∧
        ∀ signature ∈ method.signatures, ∃ line ∈ declarationLines text, ∃ type,
          declaredMethod? line = some (type, name, signature) := by
  refine ⟨fun found read => ?function, fun hook read => ?hook,
    fun member type name signature read => ?line, fun name method known => ?method⟩
  case function =>
    have declares := functionLine?_declares line found read
    exact ⟨declares, declares.unopened_iff⟩
  case hook =>
    obtain ⟨signature, shape, declares⟩ := hookLine?_declares line hook read
    exact ⟨signature, shape, declares, declares.unopened_iff⟩
  case line =>
    have declares := declaredMethod?_declares line type name signature read
    have offers := (object_offers owner text name signature).mpr ⟨line, member, type, read⟩
    exact ⟨offers, declares, declares.unopened_iff⟩
  case method =>
    have built := object_built owner text
    have listed := Registry.mem_of_get? name method _ known
    refine ⟨(built.consistent.named _ listed).1, built.overloaded name method known, ?_⟩
    exact fun signature offered => (object_offers owner text name signature).mp ⟨method, known, offered⟩

-- A call as the default of a named parameter stands behind a blank.
theorem name_cut_at_only_paren :
    functionLine? "void Maths::f(int n = g(1))".toList =
      some ⟨some "Maths".toList, "void".toList, "f".toList, Signature.parse "int n = g(1)".toList⟩ ∧
    Unopened (some "Maths".toList) "f".toList ∧
    hookLine? "void f(int n = g(1))".toList =
      some (Callable.hook "void".toList "f".toList (Signature.parse "int n = g(1)".toList)) ∧
    Unopened none "f".toList ∧
    declaredMethod? "void f(int n = g(1))".toList =
      some ("void".toList, "f".toList, Signature.parse "int n = g(1)".toList) ∧
    (object "Blob".toList "void f(int n = g(1))".toList).Offers "f".toList
      (Signature.parse "int n = g(1)".toList) ∧
    ∃ method, (object "Blob".toList "void f(int n = g(1))".toList).method? "f".toList = some method ∧
      method.name = "f".toList ∧ method.signatures ≠ [] := by
  have qualified : functionLine? "void Maths::f(int n = g(1))".toList =
      some ⟨some "Maths".toList, "void".toList, "f".toList, Signature.parse "int n = g(1)".toList⟩ := by
    decide +kernel
  have hooked : hookLine? "void f(int n = g(1))".toList =
      some (Callable.hook "void".toList "f".toList (Signature.parse "int n = g(1)".toList)) := by
    decide +kernel
  have declared : declaredMethod? "void f(int n = g(1))".toList =
      some ("void".toList, "f".toList, Signature.parse "int n = g(1)".toList) := by
    decide +kernel
  have listed : "void f(int n = g(1))".toList ∈ declarationLines "void f(int n = g(1))".toList := by
    decide +kernel
  obtain ⟨function, _⟩ := name_cut_at_last_paren "void Maths::f(int n = g(1))".toList [] []
  obtain ⟨_, hook, line, method⟩ :=
    name_cut_at_last_paren "void f(int n = g(1))".toList "Blob".toList "void f(int n = g(1))".toList
  have free := (function _ qualified).2.mpr (by decide +kernel)
  obtain ⟨_, _, _, hookFree⟩ := hook _ hooked
  obtain ⟨made, known, offered⟩ := (line listed _ _ _ declared).1
  obtain ⟨named, overloaded, _⟩ := method _ made known
  exact ⟨qualified, free, hooked, hookFree.mpr (by decide +kernel), declared, ⟨made, known, offered⟩,
    made, known, named, overloaded⟩

/-- Without that blank the call is cut, and what stands in front of it is part of the name or even of
the namespace. -/
theorem name_swallows_parameters :
    functionLine? "void f(int=g(1))".toList =
      some ⟨none, "void".toList, "f(int=g".toList, Signature.parse "1)".toList⟩ ∧
    functionLine? "void f(int=Maths::Abs(1))".toList =
      some ⟨some "f(int=Maths".toList, "void".toList, "Abs".toList, Signature.parse "1)".toList⟩ ∧
    (hookLine? "void f(int=g(1))".toList).map (·.name) = some "f(int=g".toList ∧
    ((object "Blob".toList "void f(int=g(1))".toList).methods.keys) = ["f(int=g".toList] := by
  decide +kernel

end Manual

end ScriptSense
