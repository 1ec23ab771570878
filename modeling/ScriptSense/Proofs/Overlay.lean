import ScriptSense.Proofs.FirstUse
import ScriptSense.Proofs.Overload
import ScriptSense.Script

/-!
An overlay as one table. Under each key it holds what is documented there, with the overloads that
scripts add to it; keys that scripts use come first. The documented table itself stays as it was.
-/
namespace ScriptSense

def FunctionHeader.key (header : FunctionHeader) : Text := functionKey none header.name

namespace Overlay

def add (overlay : Overlay) (header : FunctionHeader) : Overlay :=
  overlay.addSignature header.type header.name header.signature

/-- What is found under a key once the headers are laid over a table: a documented function with more
overloads, or a function as its first header describes it. -/
def laid? (base : FunctionTable) (added : List FunctionHeader) (key : Text) : Option Callable :=
  match added.filter fun header => header.key = key with
  | [] => base.get? key
  | first :: later =>
      let function := (base.get? key).getD (Callable.function none first.type first.name)
      let signatures := (first :: later).map (·.signature)
      some { function with signatures := Callable.byArity (function.signatures ++ signatures) }

def laidKeys (base : FunctionTable) (added : List FunctionHeader) : List Text :=
  (added.map (·.key)).eraseDups ++ base.keys.filter fun key => !(added.map (·.key)).contains key

theorem laid?_unused (base : FunctionTable) (added : List FunctionHeader) (key : Text)
    (unused : key ∉ added.map (·.key)) : laid? base added key = base.get? key := by
  have none : added.filter (fun header => header.key = key) = [] := by
    refine List.filter_eq_nil_iff.mpr fun header member => ?_
    simp only [decide_eq_true_eq]
    rintro rfl
    exact unused (List.mem_map_of_mem member)
  rw [laid?, none]

theorem laid?_append (base : FunctionTable) (ascending : ∀ key callable,
      base.get? key = some callable → Callable.Ascending callable.signatures)
    (added : List FunctionHeader) (header : FunctionHeader) (key : Text) :
    laid? base (added ++ [header]) key =
      if header.key = key then
        some (((laid? base added key).getD
          (Callable.function none header.type header.name)).addSignature header.signature)
      else laid? base added key := by
  by_cases here : header.key = key
  · rw [if_pos here, laid?, laid?, List.filter_append]
    cases earlier : added.filter fun header => header.key = key with
    | nil =>
        have order : Callable.Ascending ((base.get? key).getD
            (Callable.function none header.type header.name)).signatures := by
          cases documented : base.get? key with
          | none => exact List.Pairwise.nil
          | some callable => exact ascending key callable documented
        have sorted := Callable.insertOverload_byArity header.signature ((base.get? key).getD
          (Callable.function none header.type header.name)).signatures
        rw [Callable.byArity_of_ascending _ order] at sorted
        simp [here, Callable.addSignature, sorted]
    | cons first later =>
        simp [here, Callable.addSignature, Callable.insertOverload_byArity]
  · rw [if_neg here, laid?, laid?, List.filter_append]
    simp [here]

theorem get?_ownWith (key other : Text) (overlay : Overlay) :
    (overlay.ownWith key).get? other =
      if key = other then (overlay.own.get? key).or (overlay.base.get? key)
      else overlay.own.get? other := by
  rw [ownWith, Registry.contains_get?]
  cases held : overlay.own.get? key with
  | some callable =>
      rw [Option.isSome_some, if_pos rfl, Option.some_or]
      split
      · next asked => rw [← asked, held]
      · rfl
  | none =>
      rw [Option.isSome_none, if_neg Bool.false_ne_true, Option.none_or]
      cases documented : overlay.base.get? key with
      | none =>
          by_cases asked : key = other
          · rw [if_pos asked, ← asked]
            exact held
          · rw [if_neg asked]
      | some callable => exact Registry.get?_update _ _ _ _ _

theorem keys_ownWith (key : Text) (overlay : Overlay) :
    (overlay.ownWith key).keys = overlay.own.keys ∨
      (overlay.ownWith key).keys =
        if key ∈ overlay.own.keys then overlay.own.keys else overlay.own.keys ++ [key] := by
  rw [ownWith]
  split
  · exact .inl rfl
  · split
    · exact .inr (Registry.keys_update _ _ _ _)
    · exact .inl rfl

theorem get?_add (overlay : Overlay) (header : FunctionHeader) (key : Text) :
    (overlay.add header).own.get? key =
      if header.key = key then
        some ((((overlay.own.get? key).or (overlay.base.get? key)).getD
          (Callable.function none header.type header.name)).addSignature header.signature)
      else overlay.own.get? key := by
  have added := Registry.get?_update header.key key
    (Callable.function none header.type header.name) (Callable.addSignature header.signature)
    (overlay.ownWith header.key)
  simp only [get?_ownWith, if_true] at added
  rw [add, addSignature, FunctionTable.addSignature]
  refine added.trans ?_
  split
  · next asked => rw [asked]
  · rfl

theorem keys_add (overlay : Overlay) (header : FunctionHeader) :
    (overlay.add header).own.keys =
      if header.key ∈ overlay.own.keys then overlay.own.keys
      else overlay.own.keys ++ [header.key] := by
  have added := Registry.keys_update header.key
    (Callable.function none header.type header.name) (Callable.addSignature header.signature)
    (overlay.ownWith header.key)
  refine added.trans ?_
  rcases keys_ownWith header.key overlay with same | more
  · rw [same]
  · rw [more]
    by_cases held : header.key ∈ overlay.own.keys
    · simp [held]
    · simp [held]

structure Lays (base : FunctionTable) (added : List FunctionHeader) (overlay : Overlay) : Prop where
  unchanged : overlay.base = base
  keys : overlay.own.keys = (added.map (·.key)).eraseDups
  found : ∀ key, (overlay.own.get? key).or (overlay.base.get? key) = laid? base added key

theorem Lays.begin (base : FunctionTable) : Lays base [] (ofTable base) where
  unchanged := rfl
  keys := rfl
  found _ := rfl

theorem Lays.add {base : FunctionTable} {added : List FunctionHeader} {overlay : Overlay}
    (lays : Lays base added overlay) (built : base.Built) (header : FunctionHeader) :
    Lays base (added ++ [header]) (overlay.add header) where
  unchanged := lays.unchanged
  keys := by
    rw [keys_add, lays.keys, List.map_append, List.map_singleton, FirstUse.eraseDups_concat]
    simp only [List.mem_eraseDups]
  found key := by
    have before := lays.found key
    have same : (overlay.add header).base = overlay.base := rfl
    rw [laid?_append base built.ascending, get?_add, same]
    split
    · rw [before, Option.some_or]
    · exact before

theorem lays_adds (base : FunctionTable) (built : base.Built) (added : List FunctionHeader) :
    Lays base added (added.foldl add (ofTable base)) := by
  induction added using List.reverseRecOn with
  | nil => exact .begin base
  | append_singleton added header ih =>
      rw [List.foldl_append]
      exact ih.add built header

theorem ofScripts_adds (base : FunctionTable) (scripts : List Script) :
    ofScripts base scripts = (scripts.flatMap Script.functions).foldl add (ofTable base) := by
  rw [ofScripts, List.foldl_flatMap]
  rfl

namespace Lays

variable {base : FunctionTable} {added : List FunctionHeader} {overlay : Overlay}
variable (lays : Lays base added overlay)
include lays

theorem own_isSome (key : Text) : (overlay.own.get? key).isSome = true ↔ key ∈ added.map (·.key) := by
  rw [Registry.get?_isSome, lays.keys, List.mem_eraseDups]

theorem own_laid (key : Text) (used : key ∈ added.map (·.key)) :
    overlay.own.get? key = laid? base added key := by
  obtain ⟨callable, held⟩ := Option.isSome_iff_exists.mp ((lays.own_isSome key).mpr used)
  rw [← lays.found, held, Option.some_or]

theorem function?_laid (qualifier : Option Text) (name : Text) :
    overlay.function? qualifier name = laid? base added (functionKey qualifier name) :=
  lays.found (functionKey qualifier name)

theorem own_functions : overlay.own.values.map some =
    (added.map (·.key)).eraseDups.map (laid? base added) := by
  have distinct : overlay.own.keys.Nodup := by
    rw [lays.keys]
    exact FirstUse.nodup_eraseDups _
  rw [← lays.keys, Registry.values, Registry.keys, List.map_map, List.map_map]
  refine List.map_congr_left fun entry member => ?_
  have used : entry.1 ∈ added.map (·.key) := by
    rw [← List.mem_eraseDups, ← lays.keys]
    exact List.mem_map_of_mem member
  exact (Registry.get?_of_mem overlay.own distinct entry member).symm.trans (lays.own_laid _ used)

theorem base_functions (built : base.Built) :
    ((overlay.base.entries.filter fun entry => !overlay.own.contains entry.1).map (·.2)).map some =
      (base.keys.filter fun key => !(added.map (·.key)).contains key).map (laid? base added) := by
  have kept (key : Text) : overlay.own.contains key = (added.map (·.key)).contains key := by
    rw [Bool.eq_iff_iff, Registry.contains_get?, lays.own_isSome, List.contains_iff_mem]
  simp only [lays.unchanged, kept, Registry.keys, List.filter_map, List.map_map]
  refine List.map_congr_left fun entry member => ?_
  obtain ⟨listed, unused⟩ := List.mem_filter.mp member
  have other : entry.1 ∉ added.map (·.key) := by simpa using unused
  have documented := Registry.get?_of_mem base built.distinct entry listed
  exact ((laid?_unused base added entry.1 other).trans documented).symm

theorem functions_laid (built : base.Built) :
    overlay.functions.map some = (laidKeys base added).map (laid? base added) := by
  rw [functions, laidKeys, List.map_append, List.map_append, lays.own_functions,
    lays.base_functions built]

end Lays

theorem mem_laidKeys (base : FunctionTable) (added : List FunctionHeader) (key : Text) :
    key ∈ laidKeys base added ↔ key ∈ base.keys ∨ key ∈ added.map (·.key) := by
  rw [laidKeys, List.mem_append, List.mem_eraseDups, List.mem_filter, Bool.not_eq_true',
    Bool.eq_false_iff, ne_eq, List.contains_iff_mem]
  by_cases used : key ∈ added.map (·.key)
  · simp [used]
  · simp [used]

theorem nodup_laidKeys (base : FunctionTable) (built : base.Built) (added : List FunctionHeader) :
    (laidKeys base added).Nodup := by
  refine List.nodup_append.mpr ⟨FirstUse.nodup_eraseDups _, built.distinct.filter _, ?_⟩
  rintro key used _ documented rfl
  have unused := (List.mem_filter.mp documented).2
  rw [List.contains_iff_mem.mpr (List.mem_eraseDups.mp used)] at unused
  contradiction

/-- Functions of scripts, and others after them, laid over a documented table: looking a function up
and listing all of them both read the same entry under a key, and each key is listed once. -/
theorem functions_over_base (base : FunctionTable) (built : base.Built) (scripts : List Script)
    (others : List FunctionHeader) :
    let added := scripts.flatMap Script.functions ++ others
    let overlay := others.foldl add (ofScripts base scripts)
    overlay.base = base ∧
      (∀ qualifier name,
        overlay.function? qualifier name = laid? base added (functionKey qualifier name)) ∧
      (laidKeys base added).Nodup ∧
      (∀ key, key ∈ laidKeys base added ↔ key ∈ base.keys ∨ key ∈ added.map (·.key)) ∧
      overlay.functions.map some = (laidKeys base added).map (laid? base added) := by
  intro added overlay
  have lays : Lays base added overlay := by
    have all := lays_adds base built added
    rwa [List.foldl_append, ← ofScripts_adds] at all
  exact ⟨lays.unchanged, lays.function?_laid, nodup_laidKeys base built added,
    mem_laidKeys base added, lays.functions_laid built⟩

-- Both scripts add to the documented function; the one under a key of its own is listed last.
theorem functions_over_base_print :
    let print : Text := "print".toList
    let one : Signature := Signature.parse "int a".toList
    let base : FunctionTable := Registry.insert "key".toList (Callable.hook [] print one)
      (FunctionTable.addSignature none "int".toList print one Registry.empty)
    let script := Script.parse "f32 log(int a)\nvoid print(int b)".toList
    let headers := script.functions ++ [⟨"void".toList, print, Signature.empty⟩]
    let overlay := (ofScripts base [script]).add ⟨"void".toList, print, Signature.empty⟩
    base.Built ∧ overlay.function? none print = laid? base headers (functionKey none print) ∧
      overlay.functions.map some = (laidKeys base headers).map (laid? base headers) ∧
      overlay.functions.map (fun function => (function.type, function.signatureLabels)) =
        [("f32".toList, ["f32 log(int a)".toList]),
          ("int".toList, ["int print()", "int print(int a)", "int print(int b)"].map String.toList),
          ([], [" print(int a)".toList])] := by
  intro print one base script headers overlay
  have built : base.Built :=
    .insert (.addSignature .empty none "int".toList print one) "key".toList (.hook [] print one)
  obtain ⟨_, found, _, _, listed⟩ :=
    functions_over_base base built [script] [⟨"void".toList, print, Signature.empty⟩]
  have added : [script].flatMap Script.functions ++ [⟨"void".toList, print, Signature.empty⟩] =
      headers := by simp [headers]
  rw [added] at found listed
  exact ⟨built, found none print, listed, by decide +kernel⟩

end Overlay

end ScriptSense
