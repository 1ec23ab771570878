import ScriptSense.Proofs.InsertedLine
import ScriptSense.Proofs.ManualFolder

/-!
Remarks in the manual. A blank line or a comment that is put between the lines of any of its files
leaves the loaded knowledge as it was, with one exception: an indented comment of one word in the file
of the enums is loaded as a member.
-/
namespace ScriptSense

namespace FileTree

theorem alike_put (tree : FileTree) (location : Location) (text changed : Text)
    (found : tree.node? location = some (.text text)) : tree.Alike (tree.put location (.text changed)) where
  exist other := by
    rw [node?_put tree location other _ (by simp [found])]
    split
    · next same => rw [← same, found]; rfl
    · rfl
  folders other := by
    rw [node?_put tree location other _ (by simp [found])]
    split
    · next same => simp [← same, found]
    · rfl

end FileTree

namespace Manual

theorem object_inserted {line text changed : Text} (inserted : LineInserted line text changed)
    (oneLine : '\n' ∉ line) (remark : IsRemark line) (name : Text) :
    object name changed = object name text := by
  rw [object, object, declarationLines_inserted inserted oneLine remark]

theorem blocked_alike {files other : FileTree} (alike : files.Alike other) (base : Location) :
    Blocked files base ↔ Blocked other base := by
  have shape (tree : FileTree) : Blocked tree base ↔
      (tree.node? (base ++ ["Objects".toList])).isSome = true ∧
        tree.node? (base ++ ["Objects".toList]) ≠ some .folder := by
    rw [Blocked]
    cases tree.node? (base ++ ["Objects".toList]) <;> simp
  rw [shape, shape, alike.exist, ne_eq, ne_eq, alike.folders]

section Inserted

variable {files : FileTree} {location : Location} {line text changed : Text}

theorem objectsOf_inserted (found : files.node? location = some (.text text))
    (inserted : LineInserted line text changed) (oneLine : '\n' ∉ line) (remark : IsRemark line)
    (folder : Location) : objectsOf (files.put location (.text changed)) folder = objectsOf files folder := by
  have node (other : Location) := FileTree.node?_put files location other (.text changed) (by simp [found])
  have same (name : Text) := object_inserted inserted oneLine remark name
  refine objectsOf_same _ files folder fun name documented => ⟨?_, ?_⟩
  · rintro ⟨identifier, notAny, content, read, made⟩
    rw [node] at read
    split at read
    · next here =>
        cases read
        exact ⟨identifier, notAny, text, here ▸ found, made.trans (same name)⟩
    · exact ⟨identifier, notAny, content, read, made⟩
  · rintro ⟨identifier, notAny, content, read, made⟩
    by_cases here : location = folder ++ [Path.textFile name]
    · rw [← here, found] at read
      cases read
      exact ⟨identifier, notAny, changed, by rw [node, if_pos here], made.trans (same name).symm⟩
    · exact ⟨identifier, notAny, content, by rw [node, if_neg here, read], made⟩

theorem readAs_put {Table : Type} (changed : Text) (found : files.node? location = some (.text text))
    (place : Location) (missing : Table) (read : Text → Table)
    (same : location = place → read changed = read text) :
    (files.put location (.text changed)).readAs place missing read = files.readAs place missing read := by
  by_cases here : location = place
  · subst here
    rw [FileTree.readAs_text files location text _ _ found, ← same rfl]
    refine FileTree.readAs_text _ location changed _ _ ?_
    rw [FileTree.node?_put files location location _ (by simp [found]), if_pos rfl]
  · refine FileTree.readAs_same _ _ place _ _ ?_
    rw [FileTree.node?_put files location place _ (by simp [found]), if_neg here]

/-- A remark can reach the enum members only. -/
theorem knowledgeOf_inserted (found : files.node? location = some (.text text))
    (inserted : LineInserted line text changed) (oneLine : '\n' ∉ line) (remark : IsRemark line)
    (base : Location) : knowledgeOf (files.put location (.text changed)) base =
      { knowledgeOf files base with
        enumMembers := (files.put location (.text changed)).readAs (base ++ ["Enums.txt".toList])
          [] enumMembers } := by
  have lines := declarationLines_inserted inserted oneLine remark
  have objects := objectsOf_inserted found inserted oneLine remark (base ++ ["Objects".toList])
  have inFunctions := readAs_put changed found (base ++ ["Functions.txt".toList])
    Registry.empty functions fun _ => by rw [functions, functions, lines]
  have inVariables := readAs_put changed found (base ++ ["Variables.txt".toList])
    [] globalVariables fun _ => by rw [globalVariables, globalVariables, lines]
  have inHooks := readAs_put changed found (base ++ ["Hooks.txt".toList])
    [] hooks fun _ => by rw [hooks, hooks, lines]
  simp only [knowledgeOf, ← (files.alike_put location text changed found).folders, objects, inFunctions,
    inVariables, inHooks]

theorem knowledgeOf_elsewhere (found : files.node? location = some (.text text))
    (inserted : LineInserted line text changed) (oneLine : '\n' ∉ line) (remark : IsRemark line)
    (base : Location) (elsewhere : location ≠ base ++ ["Enums.txt".toList]) :
    knowledgeOf (files.put location (.text changed)) base = knowledgeOf files base := by
  rw [knowledgeOf_inserted found inserted oneLine remark,
    readAs_put changed found _ [] enumMembers fun here => absurd here elsewhere]
  rfl

theorem knowledgeOf_enums {base : Location}
    (found : files.node? (base ++ ["Enums.txt".toList]) = some (.text text))
    (inserted : LineInserted line text changed) (oneLine : '\n' ∉ line) (remark : IsRemark line) :
    (knowledgeOf files base).enumMembers = enumMembers text ∧
      knowledgeOf (files.put (base ++ ["Enums.txt".toList]) (.text changed)) base =
        { knowledgeOf files base with enumMembers := enumMembers changed } := by
  refine ⟨FileTree.readAs_text files _ text _ _ found, ?_⟩
  rw [knowledgeOf_inserted found inserted oneLine remark, FileTree.readAs_text _ _ changed]
  rw [FileTree.node?_put files _ _ _ (by simp only [found, ne_eq, Option.some.injEq, reduceCtorEq,
    not_false_eq_true]), if_pos rfl]

end Inserted

/-- A remark put between the lines of any file of the tree leaves what is loaded as it was, unless it is
an indented word among the enums. That word is then one more member, and nothing else changes. -/
theorem load_with_remark (files : FileTree) (folder : Text) (base location : Location)
    (line text changed : Text) (holds : files.Holds folder base)
    (found : files.node? location = some (.text text)) (inserted : LineInserted line text changed)
    (oneLine : '\n' ∉ line) (remark : IsRemark line) :
    (load (files.put location (.text changed)) folder = load files folder ↔
      Blocked files base ∨ location ≠ base ++ ["Enums.txt".toList] ∨ ¬IsMember line) ∧
    ∀ knowledge, load files folder = .ok knowledge → location = base ++ ["Enums.txt".toList] →
      IsMember line → ∃ opened front back, knowledge.enumMembers = front ++ back ∧
        load (files.put location (.text changed)) folder =
          .ok { knowledge with enumMembers := front ++ ⟨opened, Text.trim line⟩ :: back } := by
  have alike := files.alike_put location text changed found
  have after := alike.holds holds
  by_cases blocked : Blocked files base
  · rw [load_blocked holds blocked, load_blocked after ((blocked_alike alike base).mp blocked)]
    exact ⟨⟨fun _ => .inl blocked, fun _ => rfl⟩, nofun⟩
  · have free : ¬Blocked (files.put location (.text changed)) base :=
      mt (blocked_alike alike base).mpr blocked
    rw [load_open holds blocked, load_open after free, Except.ok.injEq]
    by_cases here : location = base ++ ["Enums.txt".toList]
    · subst here
      obtain ⟨before, made⟩ := knowledgeOf_enums found inserted oneLine remark
      rw [made]
      rcases enumMembers_inserted inserted oneLine remark with
        ⟨plain, same⟩ | ⟨member, opened, front, back, read, more⟩
      · refine ⟨⟨fun _ => .inr (.inr plain), fun _ => ?_⟩, fun _ _ _ member => absurd member plain⟩
        rw [same, ← before]
      · refine ⟨⟨fun same => ?_, fun spared => ?_⟩, ?_⟩
        · have lengths := congrArg (fun knowledge => knowledge.enumMembers.length) same
          simp [before, read, more] at lengths
        · exact absurd spared (by simp [blocked, member])
        · rintro _ loaded _ _
          cases loaded
          exact ⟨opened, front, back, before.trans read, by rw [more]⟩
    · rw [knowledgeOf_elsewhere found inserted oneLine remark base here]
      exact ⟨⟨fun _ => .inr (.inl here), fun _ => rfl⟩, fun _ _ inEnums => absurd inEnums here⟩

def oneFile (name content : Text) : FileTree :=
  ⟨[(["interface".toList], .folder), (["interface".toList, name], .text content)]⟩

-- Among the functions an indented comment of one word is passed over like any other remark.
theorem load_with_remark_functions :
    let files := oneFile "Functions.txt".toList "int one()\nint two()\n".toList
    let location := ["interface".toList, "Functions.txt".toList]
    let line := "\t--red".toList
    let changed := "int one()\n\t--red\nint two()\n".toList
    files.Holds "interface".toList ["interface".toList] ∧
      files.node? location = some (.text "int one()\nint two()\n".toList) ∧
      LineInserted line "int one()\nint two()\n".toList changed ∧ '\n' ∉ line ∧ IsRemark line ∧
      load (files.put location (.text changed)) "interface".toList = load files "interface".toList := by
  intro files location line changed
  have holds : files.Holds "interface".toList ["interface".toList] :=
    ⟨by decide +kernel, by decide +kernel⟩
  have inserted : LineInserted line "int one()\nint two()\n".toList changed :=
    .between "int one()".toList "int two()\n".toList
  have remark : IsRemark line := .inr (by decide)
  refine ⟨holds, by decide +kernel, inserted, by decide, remark, ?_⟩
  exact (load_with_remark files _ _ location line _ changed holds (by decide +kernel) inserted (by decide)
    remark).1.mpr (.inr (.inl (by decide)))

-- Among the enums it is read as a member of the namespace above it.
theorem indented_comment_is_member :
    let files := oneFile "Enums.txt".toList "Team\n\tblue\n".toList
    let location := ["interface".toList, "Enums.txt".toList]
    let line := "\t--red".toList
    let changed := "Team\n\t--red\n\tblue\n".toList
    files.node? location = some (.text "Team\n\tblue\n".toList) ∧
      LineInserted line "Team\n\tblue\n".toList changed ∧ IsRemark line ∧
      load (files.put location (.text changed)) "interface".toList ≠ load files "interface".toList := by
  refine ⟨by decide +kernel, ?_, .inr (by decide), by decide +kernel⟩
  exact .between "Team".toList "\tblue\n".toList

end Manual

end ScriptSense
