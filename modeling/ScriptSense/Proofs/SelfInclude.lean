import ScriptSense.Proofs.BreadthFirst
import ScriptSense.Proofs.History
import ScriptSense.Proofs.Overlay

/-!
An open script among the files that it leads to. The search for includes knows the files it has met
by their paths, and the open script is none of them, so a way back to its own file reads it again.
Each overload in a file is then laid over the documented functions as often as the file is read.
-/
namespace ScriptSense

namespace Callable

theorem insertOverload_perm (signature : Signature) (signatures : List Signature) :
    (insertOverload signature signatures).Perm (signature :: signatures) := by
  induction signatures with
  | nil => exact .refl _
  | cons first rest ih =>
      rw [insertOverload]
      split
      · exact (ih.cons first).trans (.swap signature first rest)
      · exact .refl _

end Callable

namespace Overlay

def overloadsOf (function : Option Callable) : List Signature := function.elim [] (·.signatures)

def overloads (name : Text) (overlay : Overlay) : List Signature :=
  overloadsOf (overlay.function? none name)

def declared (name : Text) (scripts : List Script) : List Signature :=
  ((scripts.flatMap Script.functions).filter fun header => header.name = name).map (·.signature)

theorem declared_append (name : Text) (front back : List Script) :
    declared name (front ++ back) = declared name front ++ declared name back := by
  simp [declared]

theorem declared_perm (name : Text) {left right : List Script} (same : left.Perm right) :
    (declared name left).Perm (declared name right) :=
  ((same.flatMap_right Script.functions).filter _).map _

theorem overloads_add (name : Text) (overlay : Overlay) (header : FunctionHeader) :
    ((overlay.add header).overloads name).Perm
      (overlay.overloads name ++ if header.name = name then [header.signature] else []) := by
  have same : functionKey none header.name = functionKey none name ↔ header.name = name := by
    simp [functionKey, qualified]
  have before : overlay.overloads name =
      overloadsOf ((overlay.own.get? (functionKey none name)).or
        (overlay.base.get? (functionKey none name))) := rfl
  have after : (overlay.add header).overloads name =
      overloadsOf (((overlay.add header).own.get? (functionKey none name)).or
        (overlay.base.get? (functionKey none name))) := rfl
  simp only [after, before, get?_add, FunctionHeader.key, same]
  by_cases here : header.name = name
  · rw [if_pos here, if_pos here, Option.some_or]
    have sorted := Callable.insertOverload_perm header.signature
    cases (overlay.own.get? (functionKey none name)).or
        (overlay.base.get? (functionKey none name)) with
    | none => exact .refl _
    | some function =>
        exact (sorted function.signatures).trans (List.perm_append_singleton _ _).symm
  · rw [if_neg here, if_neg here, List.append_nil]

theorem overloads_adds (name : Text) (overlay : Overlay) (headers : List FunctionHeader) :
    ((headers.foldl add overlay).overloads name).Perm
      (overlay.overloads name ++
        (headers.filter fun header => header.name = name).map (·.signature)) := by
  induction headers generalizing overlay with
  | nil => simp
  | cons header rest ih =>
      have added := (overloads_add name overlay header).append_right
        ((rest.filter fun header => header.name = name).map (·.signature))
      refine (ih (overlay.add header)).trans (added.trans (.of_eq ?_))
      by_cases here : header.name = name
      · simp [here]
      · simp [here]

/-- Nothing is merged: each declaration in a script adds one overload to the documented ones. -/
theorem overloads_ofScripts (name : Text) (base : FunctionTable) (scripts : List Script) :
    ((ofScripts base scripts).overloads name).Perm
      (overloadsOf (base.function? none name) ++ declared name scripts) := by
  have documented : (ofTable base).overloads name = overloadsOf (base.function? none name) := rfl
  rw [ofScripts_adds, ← documented]
  exact overloads_adds name (ofTable base) (scripts.flatMap Script.functions)

end Overlay

namespace ScriptIndex

variable {index : ScriptIndex} {read : Text → Option Text} {root : Script}

theorem resolve_order (index : ScriptIndex) (read : Text → Option Text) (root : Script) :
    ∃ order, index.BreadthFirst read root order ∧
      index.resolve read root = order.filterMap (script? read) := by
  obtain ⟨handled, order, visited, found, progress⟩ :=
    Search.Progress.finishes index read root [] [] root.includes [] [] (.begin index read root)
  exact ⟨order, progress.breadthFirst, progress.resolved ▸ progress.scripts⟩

/-- Only a path of some include leads to a file. -/
theorem Reached.found {count : Nat} {file : Text} (reached : index.Reached read root count file) :
    ∃ path, index.find? path = some file := by
  cases reached with
  | direct target =>
      obtain ⟨path, _, found⟩ := List.mem_filterMap.mp target
      exact ⟨path, found⟩
  | through _ target =>
      obtain ⟨script, _, target⟩ := List.mem_flatMap.mp target
      obtain ⟨path, _, found⟩ := List.mem_filterMap.mp target
      exact ⟨path, found⟩

namespace BreadthFirst

variable {order : List Text} (ordered : index.BreadthFirst read root order)
include ordered

/-- A file that is met is met under the first spelling of its path. -/
theorem first_spelling (file twin : Text) (met : twin ∈ order)
    (first : index.files.find? (fun other => Path.parts other = Path.parts file) = some file)
    (same : Path.parts twin = Path.parts file) : twin = file := by
  obtain ⟨count, reached⟩ := (ordered.reached twin).mp met
  obtain ⟨path, found⟩ := reached.found
  have spelling := index.find?_first path twin found
  rw [same, first] at spelling
  exact (Option.some.inj spelling).symm

theorem once_with (file : Text)
    (first : index.files.find? (fun other => Path.parts other = Path.parts file) = some file) :
    ((file :: order).map Path.parts).Nodup ↔ file ∉ order := by
  rw [List.map_cons, List.nodup_cons]
  constructor
  · rintro ⟨apart, _⟩ met
    exact apart (List.mem_map_of_mem met)
  · intro unmet
    refine ⟨fun again => ?_, ordered.once⟩
    obtain ⟨twin, met, same⟩ := List.mem_map.mp again
    rw [ordered.first_spelling file twin met first same] at met
    exact unmet met

/-- The scripts in the files that are met, with another file in front, are those of all the files
once and of the front file again if it is met. -/
theorem scripts_with (file : Text) :
    ((file :: order).filterMap (script? read)).Perm
      ((file :: order).eraseDups.filterMap (script? read) ++
        if file ∈ order then (script? read file).toList else []) := by
  have distinct : order.Nodup := List.Nodup.of_map Path.parts ordered.once
  by_cases met : file ∈ order
  · have once : (file :: order).eraseDups.Perm order := by
      refine FirstUse.eraseDups_perm _ _ distinct fun other => ?_
      rw [List.mem_cons]
      constructor
      · rintro (rfl | member)
        · exact met
        · exact member
      · exact .inr
    rw [if_pos met, List.filterMap_cons]
    have scripts := once.filterMap (script? read)
    cases script? read file with
    | none => simpa using scripts.symm
    | some script => exact (scripts.symm.cons script).trans (List.perm_append_singleton _ _).symm
  · have once : (file :: order).eraseDups.Perm (file :: order) :=
      FirstUse.eraseDups_perm _ _ (List.nodup_cons.mpr ⟨met, distinct⟩) fun _ => .rfl
    rw [if_neg met, List.append_nil]
    exact (once.filterMap _).symm

end BreadthFirst

end ScriptIndex

namespace Session

/-- A script that is open with the text of its own file in the index. What a request sees are the
scripts in that file and in the files that are reached. They are in the file twice exactly if a chain
of includes leads back to it. Each overload that the open script declares then counts twice, and every
other overload counts as often as the scripts declare it. -/
theorem own_file_reached (start : FileTree) (history seen : List Action) (index : ScriptIndex)
    (path file text : Text) (indexed : History.index? start history = some index)
    (first : index.files.find? (fun other => Path.parts other = Path.parts path) = some file)
    (given : History.text? path history = some text)
    (rebuilt : History.lastRebuild? (.refresh :: history) = some seen)
    (saved : (History.files start seen).read? file = some text) :
    let session := ((Session.start start).performAll history.reverse).perform .refresh
    let read := (History.files start seen).read?
    let own := Script.parse text
    ∃ opened order,
      session.workspace.script? path = some opened ∧ opened.script = own ∧
      index.BreadthFirst read own order ∧
      opened.scripts = (file :: order).filterMap (ScriptIndex.script? read) ∧
      (((file :: order).map Path.parts).Nodup ↔ ¬∃ count, index.Reached read own count file) ∧
      ∀ base name,
        let sources := (file :: order).eraseDups.filterMap (ScriptIndex.script? read)
        let again := if file ∈ order then [own] else []
        ((opened.overlay base).overloads name).Perm
          (Overlay.overloadsOf (base.function? none name) ++ Overlay.declared name sources ++
            Overlay.declared name again) := by
  intro session read own
  have follows : session.Follows start (.refresh :: history) :=
    (Follows.performAll start history).refresh
  have held : (session.workspace.script? path).map (·.text) = some text :=
    (follows.text path).trans given
  obtain ⟨opened, found, rfl⟩ := Option.map_eq_some_iff.mp held
  have parsed : opened.script = own := follows.script path opened found
  obtain ⟨_, last, included⟩ := follows.included path opened (by simp [Action.settles]) found
  rw [rebuilt, Option.some.injEq] at last
  obtain rfl := last
  obtain ⟨order, ordered, resolved⟩ := index.resolve_order read own
  have leads : opened.included = order.filterMap (ScriptIndex.script? read) := by
    have current : History.index? start (.refresh :: history) = some index := indexed
    rw [included, parsed, History.included, current]
    exact resolved
  have itself : ScriptIndex.script? read file = some own := congrArg (Option.map Script.parse) saved
  have scripts : opened.scripts = (file :: order).filterMap (ScriptIndex.script? read) := by
    rw [OpenScript.scripts, parsed, leads, List.filterMap_cons_some itself]
  have same : Path.parts file = Path.parts path := by simpa using List.find?_some first
  rw [← same] at first
  refine ⟨opened, order, found, parsed, ordered, scripts, ?_, ?_⟩
  · rw [ordered.once_with file first, ordered.reached]
  · intro base name sources again
    have twice : opened.scripts.Perm (sources ++ again) := by
      rw [scripts]
      have split := ordered.scripts_with file
      rwa [itself] at split
    rw [List.append_assoc, ← Overlay.declared_append]
    exact (Overlay.overloads_ofScripts name base opened.scripts).trans
      ((Overlay.declared_perm name twice).append_left _)

-- The two files include each other, so the way back to the open one leads through the other.
theorem own_file_reached_through_other :
    let file : Text := "Base/a.as".toList
    let text : Text := "#include \"b.as\"".toList
    let other : Text := "#include \"a.as\"".toList
    let start : FileTree :=
      (FileTree.empty.write file (.text text)).write "Base/b.as".toList (.text other)
    let index : ScriptIndex := ⟨[file, "Base/b.as".toList]⟩
    let history : List Action := [.setText file text, .setIndex index]
    let session := ((Session.start start).performAll history.reverse).perform .refresh
    ∃ opened order,
      session.workspace.script? file = some opened ∧
      opened.scripts = (file :: order).filterMap (ScriptIndex.script? start.read?) ∧
      opened.scripts = [Script.parse text, Script.parse other, Script.parse text] ∧
      ¬((file :: order).map Path.parts).Nodup := by
  intro file text other start index history session
  have rebuilt : History.lastRebuild? (.refresh :: history) = some history := by decide +kernel
  have saved : start.read? file = some text := by decide +kernel
  obtain ⟨opened, order, found, _, _, scripts, once, _⟩ :=
    own_file_reached start history history index file file text rfl (by decide +kernel)
      (by decide +kernel) rebuilt saved
  have seen : (session.workspace.script? file).map (·.scripts) =
      some [Script.parse text, Script.parse other, Script.parse text] := by decide +kernel
  have direct : index.Reached start.read? (Script.parse text) 0 "Base/b.as".toList :=
    .direct (by decide +kernel)
  have reached : index.Reached start.read? (Script.parse text) 1 file :=
    .through direct (by decide +kernel)
  refine ⟨opened, order, found, scripts, ?_, fun distinct => once.mp distinct ⟨1, reached⟩⟩
  rw [found] at seen
  exact Option.some.inj seen

-- A script that includes itself: its one function is found with its one overload twice.
theorem own_file_twice :
    let file : Text := "Base/a.as".toList
    let text : Text := "#include \"a.as\"\nvoid f(int n)\n\x7b\n\x7d\n".toList
    let start : FileTree := FileTree.empty.write file (.text text)
    let session := (Session.start start).performAll
      [.index "Base".toList, .setText file text, .refresh]
    let own := Script.parse text
    let overload := Signature.parse "int n".toList
    session.disk.read? file = some text ∧
      session.workspace.index = some ⟨[file]⟩ ∧
      Overlay.declared ['f'] [own] = [overload] ∧
      (session.workspace.script? file).map (·.scripts) = some [own, own] ∧
      (session.workspace.script? file).map
        (fun opened => (opened.overlay Registry.empty).overloads ['f']) =
          some [overload, overload] := by
  decide +kernel

end Session

end ScriptSense
