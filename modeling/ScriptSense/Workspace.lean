import ScriptSense.Answer
import ScriptSense.Files

/-!
Scripts that include each other, and the ones that an editor has open.
-/
namespace ScriptSense

/-! ### Includes

An index lists the scripts that can be included; a path leads to the first of them that ends with it.
A script's includes are followed breadth first, and each file is read at most once.
-/

def scriptExtension : Text := "as".toList

structure ScriptIndex where
  files : List Text
  deriving DecidableEq, Repr

namespace ScriptIndex

def ofFolder (files : FileTree) (folder : Text) : ScriptIndex :=
  match files.locate folder with
  | .error _ => ⟨[]⟩
  | .ok location =>
      let scripts := (files.filesBelow location).filter fun names =>
        names.getLast?.any (Path.hasExtension scriptExtension)
      ⟨scripts.map fun names => names.foldl Path.join folder⟩

def find? (index : ScriptIndex) (path : Text) : Option Text :=
  index.files.find? fun file => Path.endsWith file path

/-- The file that the first useful pending path leads to, and the paths behind it. A path is useful
if it leads to a file that was not visited. -/
def nextFile? (index : ScriptIndex) (visited : List (List PathPart)) :
    List Text → Option (Text × List Text)
  | [] => none
  | path :: pending =>
      match index.find? path with
      | none => nextFile? index visited pending
      | some file =>
          if Path.parts file ∈ visited then nextFile? index visited pending
          else some (file, pending)

theorem nextFile?_fresh (index : ScriptIndex) (visited : List (List PathPart)) (file : Text)
    (pending rest : List Text) (found : index.nextFile? visited pending = some (file, rest)) :
    file ∈ index.files ∧ Path.parts file ∉ visited := by
  induction pending with
  | nil => simp [nextFile?] at found
  | cons path pending ih =>
      simp only [nextFile?] at found
      split at found
      · exact ih found
      · next other leads =>
          split at found
          · exact ih found
          · next fresh =>
              cases found
              exact ⟨List.mem_of_find?_eq_some leads, fresh⟩

def unvisited (index : ScriptIndex) (visited : List (List PathPart)) : List Text :=
  index.files.filter fun file => Path.parts file ∉ visited

theorem unvisited_length_lt (index : ScriptIndex) (visited : List (List PathPart)) (file : Text)
    (member : file ∈ index.files) (fresh : Path.parts file ∉ visited) :
    (index.unvisited (Path.parts file :: visited)).length < (index.unvisited visited).length := by
  have split : index.unvisited (Path.parts file :: visited) =
      (index.unvisited visited).filter fun other => Path.parts other ≠ Path.parts file := by
    simp only [unvisited, List.filter_filter, List.mem_cons, not_or, Bool.decide_and, ne_eq]
  rw [split]
  apply List.length_filter_lt_length_iff_exists.mpr
  exact ⟨file, by simp [unvisited, member, fresh], by simp⟩

/-- The scripts reached through pending paths, in the order in which they are discovered. A file
is marked before it is read, so one that cannot be read is not tried again. -/
def follow (index : ScriptIndex) (read : Text → Option Text) (visited : List (List PathPart))
    (pending : List Text) : List Script :=
  match _found : index.nextFile? visited pending with
  | none => []
  | some (file, rest) =>
      match read file with
      | none => follow index read (Path.parts file :: visited) rest
      | some text =>
          Script.parse text ::
            follow index read (Path.parts file :: visited) (rest ++ (Script.parse text).includes)
termination_by (index.unvisited visited).length
decreasing_by
  all_goals
    have next := nextFile?_fresh index visited file pending rest _found
    exact unvisited_length_lt index visited file next.1 next.2

def resolve (index : ScriptIndex) (read : Text → Option Text) (script : Script) : List Script :=
  index.follow read [] script.includes

end ScriptIndex

/-! ### Open scripts

Includes are resolved when an answer is asked for, and again only after something they depend on was
changed through the workspace or reported to it.
-/

/-- Open scripts by path, the index of scripts to include, and whether the includes that the open
scripts hold are out of date. -/
structure Workspace where
  scripts : List (List PathPart × OpenScript)
  index : Option ScriptIndex
  stale : Bool
  deriving DecidableEq, Repr

namespace Workspace

def empty : Workspace := ⟨[], none, false⟩

def script? (path : Text) (workspace : Workspace) : Option OpenScript :=
  (workspace.scripts.find? fun entry => entry.1 = Path.parts path).map (·.2)

def contains (path : Text) (workspace : Workspace) : Bool := (workspace.script? path).isSome

def size (workspace : Workspace) : Nat := workspace.scripts.length

def without (path : Text) (workspace : Workspace) : List (List PathPart × OpenScript) :=
  workspace.scripts.filter fun entry => entry.1 != Path.parts path

def setText (path text : Text) (workspace : Workspace) : Workspace :=
  { workspace with
    scripts := workspace.without path ++ [(Path.parts path, OpenScript.ofText text)]
    stale := true }

def close (path : Text) (workspace : Workspace) : Workspace :=
  { workspace with scripts := workspace.without path }

def setIndex (index : ScriptIndex) (workspace : Workspace) : Workspace :=
  { workspace with index := some index, stale := true }

def markStale (workspace : Workspace) : Workspace := { workspace with stale := true }

def includesOf (read : Text → Option Text) (workspace : Workspace) (script : Script) :
    List Script :=
  match workspace.index with
  | some index => index.resolve read script
  | none => []

def rebuild (read : Text → Option Text) (workspace : Workspace) : Workspace :=
  { workspace with
    scripts := workspace.scripts.map fun (path, opened) =>
      (path, { opened with included := workspace.includesOf read opened.script })
    stale := false }

def refresh (read : Text → Option Text) (workspace : Workspace) : Workspace :=
  if workspace.stale then workspace.rebuild read else workspace

def completions (published : Option Knowledge) (path : Text) (cursor : Cursor)
    (workspace : Workspace) : List Completion :=
  match published, workspace.script? path with
  | some knowledge, some opened => opened.completions knowledge cursor
  | _, _ => []

def help? (published : Option Knowledge) (path : Text) (cursor : Cursor)
    (workspace : Workspace) : Option Help := do
  let knowledge ← published
  let opened ← workspace.script? path
  opened.help? knowledge cursor

end Workspace

end ScriptSense
