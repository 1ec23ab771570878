import ScriptSense.Proofs.DocumentedObjects

/-!
What a load makes of a folder of the tree. Each table comes from what stands at one place of the
folder, and nothing but the place of the objects can make it fail. Objects are in the order of the
bytes of their names.
-/
namespace ScriptSense

/-! ### The order of bytes

It is the order of texts by their characters. The bytes of a character begin with one that tells how
many they are, and a character with a smaller code has fewer of them or a smaller byte where both
differ first.
-/

namespace Text

def bytes (text : Text) : List UInt8 := text.flatMap String.utf8EncodeChar

/-- The first byte decides unless it is the same on both sides. -/
theorem byte_lt (low high : Nat) (rest other : List UInt8) (small : high < 256) (ordered : low ≤ high)
    (later : low = high → rest < other) : UInt8.ofNat low :: rest < UInt8.ofNat high :: other := by
  rcases Nat.lt_or_eq_of_le ordered with less | same
  · refine List.cons_lt_cons_iff.mpr (.inl ?_)
    rw [UInt8.lt_iff_toNat_lt, UInt8.toNat_ofNat', UInt8.toNat_ofNat']
    omega
  · exact List.cons_lt_cons_iff.mpr (.inr ⟨congrArg UInt8.ofNat same, later same⟩)

theorem char_bytes_lt (c d : Char) (less : c < d) (rest other : List UInt8) :
    String.utf8EncodeChar c ++ rest < String.utf8EncodeChar d ++ other := by
  have codes : c.val.toNat < d.val.toNat := less
  have bound : d.val.toNat < 1114112 := by
    have valid := d.valid
    simp only [UInt32.isValidChar, Nat.isValidChar] at valid
    omega
  simp only [String.utf8EncodeChar]
  generalize c.val.toNat = low at codes
  generalize d.val.toNat = high at codes bound
  repeat' split
  -- Of two widths the greater one has the greater first byte.
  all_goals refine byte_lt _ _ _ _ (by omega) (by omega) fun first => ?_
  all_goals try omega
  -- Of one width the digits decide, the last one if all others are the same.
  · exact byte_lt _ _ _ _ (by omega) (by omega) fun _ => by omega
  · exact byte_lt _ _ _ _ (by omega) (by omega) fun _ =>
      byte_lt _ _ _ _ (by omega) (by omega) fun _ => by omega
  · exact byte_lt _ _ _ _ (by omega) (by omega) fun _ =>
      byte_lt _ _ _ _ (by omega) (by omega) fun _ =>
        byte_lt _ _ _ _ (by omega) (by omega) fun _ => by omega

theorem bytes_lt (left right : Text) (less : left < right) : bytes left < bytes right := by
  induction left generalizing right with
  | nil =>
      cases right with
      | nil => exact absurd less (List.lt_irrefl [])
      | cons first right =>
          obtain ⟨byte, more, shape⟩ := List.exists_cons_of_ne_nil (String.utf8EncodeChar_ne_nil (c := first))
          rw [bytes, bytes, List.flatMap_cons, shape]
          exact List.nil_lt_cons byte _
  | cons first left ih =>
      cases right with
      | nil => exact absurd less (List.not_lt_nil _)
      | cons other right =>
          rw [bytes, bytes, List.flatMap_cons, List.flatMap_cons]
          rcases List.cons_lt_cons_iff.mp less with here | ⟨rfl, later⟩
          · exact char_bytes_lt first other here _ _
          · exact List.append_left_lt (ih right later)

end Text

/-! ### The load -/

namespace FileTree

def readAs {Table : Type} (tree : FileTree) (location : Location) (missing : Table)
    (read : Text → Table) : Table :=
  match tree.node? location with
  | some (.text content) => read content
  | _ => missing

theorem readAs_text {Table : Type} (tree : FileTree) (location : Location) (content : Text)
    (missing : Table) (read : Text → Table) (found : tree.node? location = some (.text content)) :
    tree.readAs location missing read = read content := by
  rw [readAs, found]

theorem readAs_same {Table : Type} (tree other : FileTree) (location : Location) (missing : Table)
    (read : Text → Table) (same : tree.node? location = other.node? location) :
    tree.readAs location missing read = other.readAs location missing read := by
  rw [readAs, readAs, same]

end FileTree

namespace Manual

def Blocked (files : FileTree) (base : Location) : Prop :=
  ∃ node, files.node? (base ++ ["Objects".toList]) = some node ∧ node ≠ .folder

def knowledgeOf (files : FileTree) (base : Location) : Knowledge where
  objects :=
    if files.node? (base ++ ["Objects".toList]) = some .folder then
      objectsOf files (base ++ ["Objects".toList])
    else Registry.empty
  functions := files.readAs (base ++ ["Functions.txt".toList]) Registry.empty functions
  globalVariables := files.readAs (base ++ ["Variables.txt".toList]) [] globalVariables
  enumMembers := files.readAs (base ++ ["Enums.txt".toList]) [] enumMembers
  hooks := files.readAs (base ++ ["Hooks.txt".toList]) [] hooks

/-- All that a manual documents, and nothing else. -/
structure Loaded (files : FileTree) (base : Location) (knowledge : Knowledge) : Prop where
  functions : knowledge.functions =
    files.readAs (base ++ ["Functions.txt".toList]) Registry.empty Manual.functions
  globalVariables : knowledge.globalVariables =
    files.readAs (base ++ ["Variables.txt".toList]) [] Manual.globalVariables
  enumMembers : knowledge.enumMembers =
    files.readAs (base ++ ["Enums.txt".toList]) [] Manual.enumMembers
  hooks : knowledge.hooks = files.readAs (base ++ ["Hooks.txt".toList]) [] Manual.hooks
  object : ∀ name documented, (name, documented) ∈ knowledge.objects.entries ↔
    files.node? (base ++ ["Objects".toList]) = some .folder ∧
      Documents files (base ++ ["Objects".toList]) name documented
  ascending : knowledge.objects.entries.Pairwise fun left right =>
    Text.bytes left.1 < Text.bytes right.1

theorem loaded_knowledgeOf (files : FileTree) (base : Location) :
    Loaded files base (knowledgeOf files base) where
  functions := rfl
  globalVariables := rfl
  enumMembers := rfl
  hooks := rfl
  object name documented := by
    simp only [knowledgeOf]
    split
    · next isFolder => simp only [isFolder, true_and, mem_objectsOf]
    · next noFolder => simp only [noFolder, false_and, Registry.empty, List.not_mem_nil]
  ascending := by
    simp only [knowledgeOf]
    split
    · exact (objectsOf_ascending files _).imp fun before => Text.bytes_lt _ _ before
    · exact List.Pairwise.nil

section Load

variable {files : FileTree} {folder : Text} {base : Location}

theorem read_orEmpty {Table : Type} (holds : files.Holds folder base) (name : Text)
    (entry : Path.IsEntry name) (missing : Table) (read : Text → Table) (empty : read [] = missing) :
    read (readOrEmpty files folder name) = files.readAs (base ++ [name]) missing read := by
  rw [readOrEmpty, holds.read?_join name entry, FileTree.readAs]
  cases files.node? (base ++ [name]) with
  | none => exact empty
  | some node =>
      cases node with
      | folder => exact empty
      | text content => rfl
      | binary => exact empty

theorem objects_blocked (holds : files.Holds folder base) (blocked : Blocked files base) :
    objects files (Path.join folder "Objects".toList) =
      .error (.notFolder (Path.join folder "Objects".toList)) := by
  obtain ⟨node, found, file⟩ := blocked
  have located := holds.locate_join "Objects".toList {}
  rw [found, Option.isSome_some, if_pos rfl] at located
  simp only [objects, located, found, Option.some.injEq, file, if_false]

theorem objects_open (holds : files.Holds folder base) (free : ¬Blocked files base) :
    objects files (Path.join folder "Objects".toList) =
      .ok (if files.node? (base ++ ["Objects".toList]) = some .folder then
        objectsIn files (base ++ ["Objects".toList]) else []) := by
  have located := holds.locate_join "Objects".toList {}
  cases found : files.node? (base ++ ["Objects".toList]) with
  | none =>
      rw [found, Option.isSome_none, if_neg Bool.false_ne_true] at located
      rw [if_neg nofun]
      simp only [objects, located]
  | some node =>
      have isFolder : node = .folder := Decidable.byContradiction fun file => free ⟨node, found, file⟩
      subst isFolder
      rw [found, Option.isSome_some, if_pos rfl] at located
      rw [if_pos rfl]
      simp only [objects, located, found, if_true]

theorem load_blocked (holds : files.Holds folder base) (blocked : Blocked files base) :
    load files folder = .error (.notFolder (Path.join folder "Objects".toList)) := by
  rw [load, objects_blocked holds blocked]
  rfl

theorem load_open (holds : files.Holds folder base) (free : ¬Blocked files base) :
    load files folder = .ok (knowledgeOf files base) := by
  rw [load, objects_open holds free,
    read_orEmpty holds "Functions.txt".toList {} Registry.empty functions rfl,
    read_orEmpty holds "Variables.txt".toList {} [] globalVariables rfl,
    read_orEmpty holds "Enums.txt".toList {} [] enumMembers rfl,
    read_orEmpty holds "Hooks.txt".toList {} [] hooks rfl]
  refine congrArg Except.ok ?_
  rw [foldl_insertObject _ _ rfl, knowledgeOf, objectsOf, apply_ite objectTable]
  rfl

theorem load_error (holds : files.Holds folder base) (error : LoadError) :
    load files folder = .error error ↔
      Blocked files base ∧ error = .notFolder (Path.join folder "Objects".toList) := by
  by_cases blocked : Blocked files base
  · simp [load_blocked holds blocked, blocked, eq_comm]
  · simp [load_open holds blocked, blocked]

end Load

/-- A manual that is missing documents nothing. -/
theorem load_missing (files : FileTree) (folder : Text) (missing : files.locate folder = .error .missing) :
    load files folder = .ok Knowledge.empty := by
  have nothing (name : Text) (entry : Path.IsEntry name) : readOrEmpty files folder name = [] := by
    rw [readOrEmpty, FileTree.read?, files.locate_missing folder name missing entry]
    rfl
  rw [load, objects, files.locate_missing folder _ missing {}, nothing "Functions.txt".toList {},
    nothing "Variables.txt".toList {}, nothing "Enums.txt".toList {}, nothing "Hooks.txt".toList {}]
  rfl

theorem documents_same (files other : FileTree)
    (same : ∀ location, files.node? location = other.node? location)
    (folder : Location) (name : Text) (documented : Object) :
    Documents files folder name documented ↔ Documents other folder name documented := by
  constructor
  · rintro ⟨identifier, notAny, content, found, read⟩
    exact ⟨identifier, notAny, content, (same _).symm.trans found, read⟩
  · rintro ⟨identifier, notAny, content, found, read⟩
    exact ⟨identifier, notAny, content, (same _).trans found, read⟩

theorem alike_same (files other : FileTree)
    (same : ∀ location, files.node? location = other.node? location) : files.Alike other where
  exist location := congrArg Option.isSome (same location)
  folders location := by rw [same location]

/-- The order in which the tree lists its files does not matter. -/
theorem knowledgeOf_same (files other : FileTree)
    (same : ∀ location, files.node? location = other.node? location) (base : Location) :
    knowledgeOf files base = knowledgeOf other base := by
  simp only [knowledgeOf, FileTree.readAs, same,
    objectsOf_same files other _ (documents_same files other same _)]

theorem load_same (files other : FileTree) (same : ∀ location, files.node? location = other.node? location)
    (folder : Text) (base : Location) (holds : files.Holds folder base) :
    load files folder = load other folder := by
  have otherHolds := (alike_same files other same).holds holds
  by_cases blocked : Blocked files base
  · rw [load_blocked holds blocked, load_blocked otherHolds (by simpa only [Blocked, same] using blocked)]
  · rw [load_open holds blocked, load_open otherHolds (by simpa only [Blocked, same] using blocked),
      knowledgeOf_same files other same]

end Manual

end ScriptSense
