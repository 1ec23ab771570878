import ScriptSense.Proofs.FirstUse
import ScriptSense.Proofs.Found
import ScriptSense.Proofs.Nesting

/-!
The names offered at a cursor and the types they resolve to. A name is listed where it is declared
first and resolves by its last declaration, over the same declarations in both cases, so what is listed
resolves. In a block a name also resolves by a variable of the file, which is not listed there; outside
of all blocks nothing else resolves.
-/
namespace ScriptSense

structure FirstNames (declared : List Declaration) (names : List Text) : Prop where
  distinct : names.Nodup
  every : ∀ name, name ∈ names ↔ ∃ found ∈ declared, found.name = name
  ordered : names.Pairwise fun one two =>
    (declared.map (·.name)).idxOf one < (declared.map (·.name)).idxOf two

theorem firstNames_eraseDups (declared : List Declaration) :
    FirstNames declared (declared.map (·.name)).eraseDups where
  distinct := FirstUse.nodup_eraseDups _
  every name := by rw [List.mem_eraseDups, List.mem_map]
  ordered := FirstUse.eraseDups_ordered _

namespace Scope

def declared (before : Text) (globals : List Declaration) : List Declaration :=
  if braces.nesting 0 before = 0 then globals else declarations (foldedText braces before)

theorem ofText_outside (before : Text) (globals : List Declaration)
    (outside : braces.nesting 0 before = 0) : ofText before globals = ⟨none, globals⟩ := by
  rw [← fold_depth, List.length_eq_zero_iff] at outside
  rw [ofText, outside]
  rfl

theorem ofText_inside (before : Text) (globals : List Declaration)
    (inside : braces.nesting 0 before ≠ 0) :
    ofText before globals = ⟨some (declarations (foldedText braces before)), globals⟩ := by
  rw [← fold_depth, Ne, List.length_eq_zero_iff] at inside
  simp [ofText, inside, foldedText]

theorem visibleNames_ofText (before : Text) (globals : List Declaration) :
    (ofText before globals).visibleNames = ((declared before globals).map (·.name)).eraseDups := by
  by_cases outside : braces.nesting 0 before = 0
  · rw [ofText_outside before globals outside, declared, if_pos outside]
    rfl
  · rw [ofText_inside before globals outside, declared, if_neg outside]
    rfl

/-- A declared name is found from either end, by declarations that may differ. -/
theorem find_named (declared : List Declaration) (found : Declaration) (member : found ∈ declared) :
    ∃ first ∈ declared, first.name = found.name ∧
      declared.find? (fun other => other.name = found.name) = some first := by
  have listed : (declared.find? fun other => other.name = found.name).isSome :=
    List.find?_isSome.mpr ⟨found, member, decide_eq_true rfl⟩
  obtain ⟨first, here⟩ := Option.isSome_iff_exists.mp listed
  have named := List.find?_some here
  exact ⟨first, List.mem_of_find?_eq_some here, of_decide_eq_true named, here⟩

theorem typeOf?_declared (before : Text) (globals : List Declaration) (found : Declaration)
    (member : found ∈ declared before globals) :
    ∃ other ∈ declared before globals, other.name = found.name ∧
      (ofText before globals).typeOf? found.name = some other.type := by
  by_cases outside : braces.nesting 0 before = 0
  · rw [declared, if_pos outside] at member ⊢
    obtain ⟨first, inFile, named, here⟩ := find_named globals found member
    refine ⟨first, inFile, named, ?_⟩
    rw [ofText_outside before globals outside, typeOf?, here]
    rfl
  · rw [declared, if_neg outside] at member ⊢
    obtain ⟨last, inBlocks, named, here⟩ := find_named _ found (List.mem_reverse.mpr member)
    refine ⟨last, List.mem_reverse.mp inBlocks, named, ?_⟩
    rw [ofText_inside before globals outside, typeOf?, Option.getD_some, here]
    rfl

/-- Outside of all blocks a name resolves only where the file declares it. -/
theorem declared_of_typeOf? (before : Text) (globals : List Declaration) (name : Text)
    (outside : braces.nesting 0 before = 0)
    (resolves : ((ofText before globals).typeOf? name).isSome) :
    ∃ found ∈ declared before globals, found.name = name := by
  rw [ofText_outside before globals outside, typeOf?, Option.isSome_map] at resolves
  obtain ⟨found, member, named⟩ := List.find?_isSome.mp resolves
  rw [declared, if_pos outside]
  exact ⟨found, member, of_decide_eq_true named⟩

/-- The declarations of a text are taken in the order in which they stand. At a cursor the names of
those in scope are listed once each, by first declaration, and each of them resolves to the type of one
of its declarations. In no open block, only they resolve. -/
theorem visibleNames_resolve (before : Text) (globals : List Declaration) :
    Declaration.InOrder (foldedText braces before) (declarations (foldedText braces before)) ∧
      FirstNames (declared before globals) (ofText before globals).visibleNames ∧
      (∀ name ∈ (ofText before globals).visibleNames, ∃ found ∈ declared before globals,
        found.name = name ∧ (ofText before globals).typeOf? name = some found.type) ∧
      (braces.nesting 0 before = 0 → ∀ name, ((ofText before globals).typeOf? name).isSome →
        name ∈ (ofText before globals).visibleNames) := by
  have listed : FirstNames (declared before globals) (ofText before globals).visibleNames := by
    rw [visibleNames_ofText]
    exact firstNames_eraseDups _
  refine ⟨declarations_inOrder _, listed, ?_, ?_⟩
  · intro name visible
    obtain ⟨found, member, rfl⟩ := (listed.every name).mp visible
    exact typeOf?_declared before globals found member
  · intro outside name resolves
    exact (listed.every name).mpr (declared_of_typeOf? before globals name outside resolves)

-- A name declared twice is listed in its first place and has its last type.
example :
    let scope := ofText "\x7b u8 a; int b; f32 a;".toList [⟨"bool".toList, "c".toList⟩]
    scope.visibleNames = ["a".toList, "b".toList] ∧ scope.typeOf? "a".toList = some "f32".toList ∧
      scope.typeOf? "c".toList = some "bool".toList := by
  decide

end Scope

end ScriptSense
