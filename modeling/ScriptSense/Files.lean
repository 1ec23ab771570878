import ScriptSense.Text

/-!
Paths and the trees of files they lead into.
-/
namespace ScriptSense

/-! ### Paths

A path is text with `/` between its parts. Two texts name the same path if their parts agree:
repeated and final `/` do not count, and neither does a `.` unless the path begins with it.
-/

inductive PathPart where
  | root
  | here
  | up
  | name (text : Text)
  deriving DecidableEq, Repr

namespace Path

def part? (piece : Text) : Option PathPart :=
  if piece.isEmpty || piece == ['.'] then none
  else if piece == ['.', '.'] then some .up
  else some (.name piece)

def firstPart? (path first : Text) : Option PathPart :=
  if path.head? = some '/' then some .root
  else if first = ['.'] then some .here
  else part? first

def parts (path : Text) : List PathPart :=
  match path.splitOn '/' with
  | [] => []
  | first :: rest => (firstPart? path first).toList ++ rest.filterMap part?

def asksForFolder (path : Text) : Bool :=
  match (path.splitOn '/').getLast? with
  | some last => last.isEmpty || last == ['.']
  | none => true

/-- A path that ends in `.` or `..` leads to a folder without naming it in the one above. -/
def namesEntry (path : Text) : Bool :=
  match ((path.splitOn '/').filter fun piece => !piece.isEmpty).getLast? with
  | some last => last != ['.'] && last != ['.', '.']
  | none => false

def endsWith (path ending : Text) : Bool := (parts ending).isSuffixOf (parts path)

def join (folder name : Text) : Text :=
  if folder.isEmpty || folder.getLast? == some '/' then folder ++ name else folder ++ '/' :: name

/-- A file name up to its last dot, and what follows the dot. A dot in front makes no extension. -/
def splitExtension (name : Text) : Text × Option Text :=
  match name.reverse.span (· != '.') with
  | (extension, _ :: first :: stem) => ((first :: stem).reverse, some extension.reverse)
  | _ => (name, none)

def stem (name : Text) : Text := (splitExtension name).1

def hasExtension (extension name : Text) : Bool := (splitExtension name).2 == some extension

end Path

/-! ### Trees

A tree is held as a list of its nodes. A location is the list of names from the root down; the
root is always a folder. Looking a path up fails in one of two ways: something on it is missing, or
it goes on below a file, and a final `/` goes on as much as a name does.
-/

inductive FileNode where
  | folder
  | text (content : Text)
  | binary
  deriving DecidableEq, Repr

abbrev Location := List Text

inductive Absence where
  | missing
  | belowFile
  deriving DecidableEq, Repr

structure FileTree where
  nodes : List (Location × FileNode)
  deriving DecidableEq, Repr

namespace FileTree

def empty : FileTree := ⟨[]⟩

def node? (tree : FileTree) (location : Location) : Option FileNode :=
  if location.isEmpty then some .folder
  else (tree.nodes.find? fun entry => entry.1 = location).map (·.2)

def addFolder (location : Location) (tree : FileTree) : FileTree :=
  if (tree.node? location).isSome then tree else ⟨tree.nodes ++ [(location, .folder)]⟩

def put (location : Location) (file : FileNode) (tree : FileTree) : FileTree :=
  if tree.node? location = some .folder then tree
  else ⟨(tree.nodes.filter fun entry => entry.1 != location) ++ [(location, file)]⟩

def descend (tree : FileTree) : Location → List PathPart → Except Absence Location
  | location, [] => .ok location
  | location, part :: rest =>
      if tree.node? location ≠ some .folder then .error .belowFile
      else
        match part with
        | .root => descend tree [] rest
        | .here => descend tree location rest
        | .up => descend tree location.dropLast rest
        | .name name =>
            if (tree.node? (location ++ [name])).isSome then
              descend tree (location ++ [name]) rest
            else .error .missing

def locate (tree : FileTree) (path : Text) : Except Absence Location := do
  let location ← tree.descend [] (Path.parts path)
  if Path.asksForFolder path && tree.node? location != some .folder then throw .belowFile
  return location

/-- Follows the parts of a path from a folder and adds the folders that are missing. A file on the
way ends it. -/
def enter (tree : FileTree) (location : Location) : List PathPart → FileTree × Option Location
  | [] => (tree, some location)
  | .root :: rest => tree.enter [] rest
  | .here :: rest => tree.enter location rest
  | .up :: rest => tree.enter location.dropLast rest
  | .name name :: rest =>
      let tree := tree.addFolder (location ++ [name])
      if tree.node? (location ++ [name]) = some .folder then tree.enter (location ++ [name]) rest
      else (tree, none)

def write (path : Text) (node : FileNode) (tree : FileTree) : FileTree :=
  let parts := Path.parts path
  if node = .folder then (tree.enter [] parts).1
  else
    match tree.enter [] parts.dropLast, parts.getLast? with
    | (tree, some folder), some (.name name) =>
        if Path.asksForFolder path then tree else tree.put (folder ++ [name]) node
    | (tree, _), _ => tree

/-- Removes the file a path leads to, or the folder with all below it. A folder that the path does
not name is emptied and stays. -/
def delete (path : Text) (tree : FileTree) : FileTree :=
  match tree.locate path with
  | .ok location =>
      ⟨tree.nodes.filter fun entry =>
        !location.isPrefixOf entry.1 || (entry.1 == location && !Path.namesEntry path)⟩
  | .error _ => tree

def isFolder (tree : FileTree) (path : Text) : Bool :=
  match tree.locate path with
  | .ok location => tree.node? location == some .folder
  | .error _ => false

def read? (tree : FileTree) (path : Text) : Option Text :=
  match tree.locate path with
  | .ok location =>
      match tree.node? location with
      | some (.text content) => some content
      | _ => none
  | .error _ => none

def names (tree : FileTree) (folder : Location) : List Text :=
  tree.nodes.filterMap fun entry =>
    match entry.1.getLast? with
    | some name => if entry.1.dropLast = folder then some name else none
    | none => none

def filesBelow (tree : FileTree) (folder : Location) : List Location :=
  let files := tree.nodes.filter fun entry =>
    entry.2 != .folder && folder.isPrefixOf entry.1 && entry.1 != folder
  (files.map fun entry => entry.1.drop folder.length).mergeSort fun left right => !decide (right < left)

end FileTree

end ScriptSense
