import ScriptSense.Files

/-!
A tree of files as the look-up of a location shows it. A path that goes on from a folder by the name of
an entry leads to that entry, and what a folder lists are the entries that can be looked up in it.
-/
namespace ScriptSense

namespace Path

structure IsEntry (name : Text) : Prop where
  some_char : name ≠ [] := by decide
  plain : '/' ∉ name := by decide
  notHere : name ≠ ['.'] := by decide
  notUp : name ≠ ['.', '.'] := by decide

theorem part?_entry (name : Text) (entry : IsEntry name) : part? name = some (.name name) := by
  simp [part?, entry.some_char, entry.notHere, entry.notUp]

theorem part?_nothing : part? [] = none := rfl

theorem splitOn_slash (front last : Text) (plain : '/' ∉ last) :
    (front ++ '/' :: last).splitOn '/' = front.splitOn '/' ++ [last] := by
  rw [List.splitOn_append_cons_self, List.splitOn_eq_singleton plain]

theorem firstPart?_append (front back first : Text) (some_char : front ≠ []) :
    firstPart? (front ++ back) first = firstPart? front first := by
  rw [firstPart?, firstPart?, List.head?_append, List.head?_eq_some_head some_char, Option.some_or]

/-- The text behind the last `/` is the last part, if it is one. -/
theorem parts_slash (front last : Text) (plain : '/' ∉ last) :
    parts (front ++ '/' :: last) = parts (front ++ ['/']) ++ (part? last).toList := by
  obtain ⟨first, rest, pieces⟩ := List.exists_cons_of_ne_nil (List.splitOn_ne_nil '/' front)
  have same : firstPart? (front ++ '/' :: last) first = firstPart? (front ++ ['/']) first := by
    have split : front ++ '/' :: last = (front ++ ['/']) ++ last := by simp
    rw [split, firstPart?_append _ _ _ (by simp)]
  rw [parts, parts, splitOn_slash front last plain, splitOn_slash front [] List.not_mem_nil, pieces]
  cases read : part? last with
  | none => simp [same, part?_nothing, read]
  | some part => simp [same, part?_nothing, read]

theorem parts_trailing (front : Text) (some_char : front ≠ []) : parts (front ++ ['/']) = parts front := by
  obtain ⟨first, rest, pieces⟩ := List.exists_cons_of_ne_nil (List.splitOn_ne_nil '/' front)
  rw [parts, parts, splitOn_slash front [] List.not_mem_nil, pieces]
  simp [firstPart?_append front _ first some_char, part?_nothing]

/-- A joined path is one with a last `/` in it, or the name alone. -/
theorem join_shape (folder name : Text) : folder = [] ∧ join folder name = name ∨
    ∃ front, join folder name = front ++ '/' :: name ∧
      (folder = front ++ ['/'] ∨ folder = front ∧ front ≠ []) := by
  rw [join]
  by_cases empty : folder = []
  · exact .inl ⟨empty, by simp [empty]⟩
  · by_cases trailing : folder.getLast? = some '/'
    · obtain ⟨front, rfl⟩ := List.getLast?_eq_some_iff.mp trailing
      exact .inr ⟨front, by simp, .inl rfl⟩
    · exact .inr ⟨folder, by simp [empty, trailing], .inr ⟨rfl, empty⟩⟩

theorem parts_join (folder name : Text) (entry : IsEntry name) :
    parts (join folder name) = parts folder ++ [.name name] := by
  obtain ⟨rfl, joined⟩ | ⟨front, joined, trailing | ⟨rfl, some_char⟩⟩ := join_shape folder name
  · have head : name.head? ≠ some '/' := fun slash => entry.plain (List.mem_of_head? slash)
    rw [joined, parts, List.splitOn_eq_singleton entry.plain]
    simp [firstPart?, head, entry.notHere, part?_entry name entry, parts, part?_nothing]
  · rw [joined, trailing, parts_slash front name entry.plain, part?_entry name entry]
    rfl
  · rw [joined, parts_slash folder name entry.plain, parts_trailing folder some_char,
      part?_entry name entry]
    rfl

theorem join_namesFile (folder name : Text) (entry : IsEntry name) :
    asksForFolder (join folder name) = false := by
  have last : ((join folder name).splitOn '/').getLast? = some name := by
    obtain ⟨_, joined⟩ | ⟨front, joined, _⟩ := join_shape folder name
    · rw [joined, List.splitOn_eq_singleton entry.plain]
      rfl
    · rw [joined, splitOn_slash front name entry.plain, List.getLast?_concat]
  simp [asksForFolder, last, entry.some_char, entry.notHere]

end Path

namespace FileTree

theorem descend_append (tree : FileTree) (location : Location) (front back : List PathPart) :
    tree.descend location (front ++ back) =
      (tree.descend location front).bind fun reached => tree.descend reached back := by
  induction front generalizing location with
  | nil => rfl
  | cons part front ih =>
      simp only [List.cons_append, descend]
      split
      · rfl
      · cases part with
        | root => exact ih []
        | here => exact ih location
        | up => exact ih location.dropLast
        | name name =>
            dsimp only
            split
            · exact ih _
            · rfl

structure Holds (tree : FileTree) (path : Text) (location : Location) : Prop where
  located : tree.locate path = .ok location
  isFolder : tree.node? location = some .folder

theorem descend_located (tree : FileTree) (path : Text) (location : Location)
    (located : tree.locate path = .ok location) : tree.descend [] (Path.parts path) = .ok location := by
  rw [locate] at located
  cases reached : tree.descend [] (Path.parts path) with
  | error absence =>
      rw [reached] at located
      cases located
  | ok found =>
      rw [reached] at located
      simp only [bind, Except.bind] at located
      split at located
      · cases located
      · cases located
        rfl

theorem Holds.locate_join {tree : FileTree} {path : Text} {location : Location}
    (holds : tree.Holds path location) (name : Text) (entry : Path.IsEntry name) :
    tree.locate (Path.join path name) =
      if (tree.node? (location ++ [name])).isSome then .ok (location ++ [name])
      else .error .missing := by
  have reached : tree.descend [] (Path.parts (Path.join path name)) =
      if (tree.node? (location ++ [name])).isSome then .ok (location ++ [name])
      else .error .missing := by
    rw [Path.parts_join path name entry, descend_append,
      tree.descend_located path location holds.located]
    simp [Except.bind, descend, holds.isFolder]
  rw [locate, reached, Path.join_namesFile path name entry]
  split
  · rfl
  · rfl

theorem Holds.read?_join {tree : FileTree} {path : Text} {location : Location}
    (holds : tree.Holds path location) (name : Text) (entry : Path.IsEntry name) :
    tree.read? (Path.join path name) =
      match tree.node? (location ++ [name]) with
      | some (.text content) => some content
      | _ => none := by
  rw [read?, holds.locate_join name entry]
  cases found : tree.node? (location ++ [name]) with
  | none => rfl
  | some node => cases node <;> simp [found]

theorem locate_missing (tree : FileTree) (path name : Text) (missing : tree.locate path = .error .missing)
    (entry : Path.IsEntry name) : tree.locate (Path.join path name) = .error .missing := by
  have absent : tree.descend [] (Path.parts path) = .error .missing := by
    rw [locate] at missing
    cases reached : tree.descend [] (Path.parts path) with
    | error absence =>
        rw [reached] at missing
        exact missing
    | ok found =>
        rw [reached] at missing
        simp only [bind, Except.bind] at missing
        split at missing
        · cases missing
        · cases missing
  rw [locate, Path.parts_join path name entry, descend_append, absent]
  rfl

/-- The same locations lead to something, and the same ones to folders. -/
structure Alike (tree other : FileTree) : Prop where
  exist : ∀ location, (tree.node? location).isSome = (other.node? location).isSome
  folders : ∀ location, tree.node? location = some .folder ↔ other.node? location = some .folder

theorem Alike.descend {tree other : FileTree} (alike : tree.Alike other) (location : Location)
    (parts : List PathPart) : tree.descend location parts = other.descend location parts := by
  induction parts generalizing location with
  | nil => rfl
  | cons part rest ih =>
      simp only [FileTree.descend, ne_eq, alike.folders location, alike.exist, ih]

theorem Alike.locate {tree other : FileTree} (alike : tree.Alike other) (path : Text) :
    tree.locate path = other.locate path := by
  have folder (location : Location) : (tree.node? location != some .folder) =
      (other.node? location != some .folder) := by
    rw [Bool.eq_iff_iff, bne_iff_ne, bne_iff_ne, ne_eq, ne_eq, alike.folders location]
  simp only [FileTree.locate, alike.descend, folder]

theorem Alike.holds {tree other : FileTree} (alike : tree.Alike other) {path : Text}
    {location : Location} (holds : tree.Holds path location) : other.Holds path location where
  located := (alike.locate path).symm.trans holds.located
  isFolder := (alike.folders location).mp holds.isFolder

theorem node?_below (tree : FileTree) (location : Location) (some_name : location ≠ []) :
    tree.node? location = (tree.nodes.find? fun entry => entry.1 = location).map (·.2) := by
  rw [node?, if_neg (by simpa using some_name)]

theorem find?_others (nodes : List (Location × FileNode)) (location other : Location) :
    ((nodes.filter fun entry => entry.1 != location).find? fun entry => entry.1 = other) =
      if location = other then none else nodes.find? fun entry => entry.1 = other := by
  rw [List.find?_filter]
  by_cases same : location = other
  · simp [same]
  · rw [if_neg same]
    congr 1
    funext entry
    by_cases here : entry.1 = other
    · simp [here, Ne.symm same]
    · simp [here]

theorem node?_put (tree : FileTree) (location other : Location) (file : FileNode)
    (present : tree.node? location ≠ some .folder) :
    (tree.put location file).node? other = if location = other then some file else tree.node? other := by
  have some_name : location ≠ [] := by
    rintro rfl
    exact present rfl
  rw [put, if_neg present]
  by_cases top : other = []
  · subst top
    rw [if_neg some_name]
    rfl
  · rw [node?_below _ other top, node?_below _ other top, List.find?_append, find?_others]
    by_cases same : location = other
    · simp [same]
    · simp [same]

theorem node?_entry (tree : FileTree) (location : Location) (some_name : location ≠ []) :
    (tree.node? location).isSome = true ↔ ∃ node, (location, node) ∈ tree.nodes := by
  simp [node?_below tree location some_name]

theorem mem_names (tree : FileTree) (folder : Location) (name : Text) :
    name ∈ tree.names folder ↔ (tree.node? (folder ++ [name])).isSome = true := by
  rw [node?_entry tree _ (by simp), names, List.mem_filterMap]
  constructor
  · rintro ⟨⟨location, node⟩, listed, read⟩
    dsimp only at read
    split at read
    · next last atEnd =>
        split at read
        · next inFolder =>
            cases read
            obtain ⟨front, rfl⟩ := List.getLast?_eq_some_iff.mp atEnd
            rw [List.dropLast_concat] at inFolder
            exact ⟨node, inFolder ▸ listed⟩
        · cases read
    · cases read
  · rintro ⟨node, listed⟩
    exact ⟨_, listed, by simp⟩

end FileTree

end ScriptSense
