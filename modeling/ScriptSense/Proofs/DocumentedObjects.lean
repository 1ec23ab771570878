import ScriptSense.Manual
import ScriptSense.Proofs.Class
import ScriptSense.Proofs.FileView
import ScriptSense.Proofs.FirstUse
import ScriptSense.Proofs.Registry

/-!
The objects that a folder documents. Each text file named after an identifier documents one, and no
other file does. They stand in the order of their names, whatever order the folder lists its files in,
so a tree of files that look-up cannot tell from another one documents the same objects.
-/
namespace ScriptSense

namespace Path

def textFile (stem : Text) : Text := stem ++ ".txt".toList

theorem splitExtension_last (stem extension : Text) (some_char : stem ≠ []) (oneDot : '.' ∉ extension) :
    splitExtension (stem ++ '.' :: extension) = (stem, some extension) := by
  have apart : '.' ∉ extension.reverse := mt List.mem_reverse.mp oneDot
  have reversed : (stem ++ '.' :: extension).reverse = extension.reverse ++ '.' :: stem.reverse := by simp
  obtain ⟨last, front, shape⟩ := List.exists_cons_of_ne_nil (mt List.reverse_eq_nil_iff.mp some_char)
  have whole : (last :: front).reverse = stem := by rw [← shape, List.reverse_reverse]
  rw [splitExtension, reversed, Text.span_first '.' _ _ apart, shape]
  simp only [whole, List.reverse_reverse]

theorem splitExtension_some (name extension : Text) (read : (splitExtension name).2 = some extension) :
    name = stem name ++ '.' :: extension ∧ stem name ≠ [] := by
  by_cases dot : '.' ∈ name.reverse
  · obtain ⟨last, front, split, apart⟩ := List.eq_append_cons_of_mem dot
    have whole : name = front.reverse ++ '.' :: last.reverse := by
      rw [← List.reverse_reverse name, split]
      simp
    by_cases some_char : front.reverse = []
    · rw [List.reverse_eq_nil_iff] at some_char
      rw [splitExtension, split, Text.span_first '.' _ _ apart, some_char] at read
      cases read
    · have parts := splitExtension_last front.reverse last.reverse some_char (mt List.mem_reverse.mp apart)
      rw [← whole] at parts
      rw [parts] at read
      rw [stem, parts, ← Option.some.inj read]
      exact ⟨whole, some_char⟩
  · rw [splitExtension, Text.span_absent '.' _ dot] at read
    cases read

end Path

namespace Manual

theorem isObjectFile_textFile (stem : Text) (identifier : Text.isIdentifier stem = true)
    (other : stem ≠ anyObject) : isObjectFile (Path.textFile stem) = true := by
  obtain ⟨some_char, _⟩ := Text.identifier_chars stem identifier
  have parts : Path.splitExtension (Path.textFile stem) = (stem, some "txt".toList) :=
    Path.splitExtension_last stem "txt".toList some_char (by decide)
  simp [isObjectFile, Path.hasExtension, Path.stem, parts, identifier, other]

theorem isObjectFile_cases (name : Text) (documents : isObjectFile name = true) :
    name = Path.textFile (Path.stem name) ∧ Text.isIdentifier (Path.stem name) = true ∧
      Path.stem name ≠ anyObject := by
  simp only [isObjectFile, Path.hasExtension, Bool.and_eq_true, beq_iff_eq, bne_iff_ne] at documents
  obtain ⟨⟨extension, identifier⟩, other⟩ := documents
  exact ⟨(Path.splitExtension_some name _ extension).1, identifier, other⟩

theorem stem_textFile (stem : Text) (identifier : Text.isIdentifier stem = true) :
    Path.stem (Path.textFile stem) = stem := by
  obtain ⟨some_char, _⟩ := Text.identifier_chars stem identifier
  rw [Path.stem, Path.textFile]
  exact congrArg Prod.fst (Path.splitExtension_last stem "txt".toList some_char (by decide))

theorem addMember_name (object : Object) (line : Text) : (addMember object line).name = object.name := by
  rw [addMember]
  split
  · rfl
  · split
    · rfl
    · split
      · rfl
      · rfl

theorem object_name (name text : Text) : (object name text).name = name := by
  have kept (lines : List Text) (object : Object) : (lines.foldl addMember object).name = object.name := by
    induction lines generalizing object with
    | nil => rfl
    | cons line rest ih => rw [List.foldl_cons, ih, addMember_name]
  exact kept _ _

structure Documents (files : FileTree) (folder : Location) (name : Text) (documented : Object) : Prop where
  identifier : Text.isIdentifier name = true
  other : name ≠ anyObject
  read : ∃ content, files.node? (folder ++ [Path.textFile name]) = some (.text content) ∧
    documented = object name content

theorem Documents.unique {files : FileTree} {folder : Location} {name : Text} {one two : Object}
    (first : Documents files folder name one) (second : Documents files folder name two) : one = two := by
  obtain ⟨content, found, rfl⟩ := first.read
  obtain ⟨other, again, rfl⟩ := second.read
  rw [found] at again
  cases again
  rfl

theorem Documents.name_eq {files : FileTree} {folder : Location} {name : Text} {documented : Object}
    (documents : Documents files folder name documented) : documented.name = name := by
  obtain ⟨content, _, rfl⟩ := documents.read
  exact object_name name content

theorem readObject?_some (files : FileTree) (folder : Location) (name : Text) (documented : Object)
    (read : readObject? files folder name = some documented) :
    ∃ content, files.node? (folder ++ [name]) = some (.text content) ∧
      documented = object (Path.stem name) content := by
  rw [readObject?] at read
  split at read
  · next content found =>
      cases read
      exact ⟨content, found, rfl⟩
  · cases read

theorem mem_objectsIn (files : FileTree) (folder : Location) (documented : Object) :
    documented ∈ objectsIn files folder ↔ ∃ name, Documents files folder name documented := by
  rw [objectsIn, List.mem_filterMap]
  simp only [List.mem_mergeSort, List.mem_filter]
  constructor
  · rintro ⟨file, ⟨_, documents⟩, read⟩
    obtain ⟨whole, identifier, other⟩ := isObjectFile_cases file documents
    obtain ⟨content, found, same⟩ := readObject?_some files folder file documented read
    exact ⟨Path.stem file, identifier, other, content, whole ▸ found, same⟩
  · rintro ⟨name, identifier, other, content, found, rfl⟩
    refine ⟨Path.textFile name, ⟨?_, isObjectFile_textFile name identifier other⟩, ?_⟩
    · rw [FileTree.mem_names, found]
      rfl
    · rw [readObject?, found, stem_textFile name identifier]

theorem objectsIn_ascending (files : FileTree) (folder : Location) :
    (objectsIn files folder).Pairwise fun left right => ¬right.name < left.name := by
  have transitive : ∀ one two three : Text,
      (!decide (Path.stem two < Path.stem one)) = true →
        (!decide (Path.stem three < Path.stem two)) = true → (!decide (Path.stem three < Path.stem one)) = true := by
    intro one two three first second
    simp only [Bool.not_eq_true', decide_eq_false_iff_not] at first second ⊢
    exact List.le_trans first second
  have total : ∀ one two : Text, (!decide (Path.stem two < Path.stem one) ||
      !decide (Path.stem one < Path.stem two)) = true := by
    intro one two
    simp only [Bool.or_eq_true, Bool.not_eq_true', decide_eq_false_iff_not]
    exact List.le_total (Path.stem one) (Path.stem two)
  have sorted := List.pairwise_mergeSort transitive total ((files.names folder).filter isObjectFile)
  rw [objectsIn, List.pairwise_filterMap]
  refine sorted.imp ?_
  intro left right before one readOne two readTwo
  obtain ⟨content, _, rfl⟩ := readObject?_some files folder left one readOne
  obtain ⟨other, _, rfl⟩ := readObject?_some files folder right two readTwo
  simpa [object_name] using before

def objectTable (objects : List Object) : Registry Object :=
  objects.foldl (fun table documented => table.insert documented.name documented) Registry.empty

theorem objectTable_concat (objects : List Object) (last : Object) :
    objectTable (objects ++ [last]) = (objectTable objects).insert last.name last := by
  rw [objectTable, List.foldl_append]
  rfl

theorem foldl_insertObject (objects : List Object) (knowledge : Knowledge)
    (fresh : knowledge.objects = Registry.empty) :
    objects.foldl (fun knowledge documented => knowledge.insertObject documented) knowledge =
      { knowledge with objects := objectTable objects } := by
  induction objects using List.reverseRecOn with
  | nil => simp [objectTable, ← fresh]
  | append_singleton objects last ih =>
      rw [List.foldl_append, ih, objectTable_concat]
      rfl

theorem objectTable_keys (objects : List Object) :
    (objectTable objects).keys = (objects.map (·.name)).eraseDups := by
  induction objects using List.reverseRecOn with
  | nil => rfl
  | append_singleton objects last ih =>
      rw [objectTable_concat, Registry.insert, Registry.keys_update, ih, List.map_append,
        List.map_singleton, FirstUse.eraseDups_concat]
      simp only [List.mem_eraseDups]

theorem objectTable_listed (objects : List Object) :
    (objectTable objects).Every fun name documented => documented ∈ objects ∧ documented.name = name := by
  induction objects using List.reverseRecOn with
  | nil => exact Registry.every_empty _
  | append_singleton objects last ih =>
      have here : last ∈ objects ++ [last] := List.mem_append_right _ List.mem_cons_self
      rw [objectTable_concat]
      refine Registry.every_update _ _ _ _ _ ?_ ⟨here, rfl⟩ fun _ _ => ⟨here, rfl⟩
      intro entry member
      obtain ⟨listed, name⟩ := ih entry member
      exact ⟨List.mem_append_left _ listed, name⟩

def objectsOf (files : FileTree) (folder : Location) : Registry Object := objectTable (objectsIn files folder)

theorem mem_objectsOf (files : FileTree) (folder : Location) (name : Text) (documented : Object) :
    (name, documented) ∈ (objectsOf files folder).entries ↔ Documents files folder name documented := by
  constructor
  · intro member
    obtain ⟨listed, named⟩ := objectTable_listed _ _ member
    obtain ⟨stem, documents⟩ := (mem_objectsIn files folder documented).mp listed
    have same : stem = name := documents.name_eq.symm.trans named
    exact same ▸ documents
  · intro documents
    have listed := (mem_objectsIn files folder documented).mpr ⟨name, documents⟩
    have key : name ∈ (objectsOf files folder).keys := by
      rw [objectsOf, objectTable_keys, List.mem_eraseDups, ← documents.name_eq]
      exact List.mem_map_of_mem listed
    obtain ⟨⟨_, other⟩, member, rfl⟩ := List.mem_map.mp key
    obtain ⟨otherListed, otherName⟩ := objectTable_listed _ _ member
    obtain ⟨_, otherDocuments⟩ := (mem_objectsIn files folder other).mp otherListed
    rw [← otherDocuments.name_eq, otherName] at otherDocuments
    rw [documents.unique otherDocuments]
    exact member

theorem objectsOf_ascending (files : FileTree) (folder : Location) :
    (objectsOf files folder).entries.Pairwise fun left right => left.1 < right.1 := by
  have distinct : (objectsOf files folder).keys.Nodup := by
    rw [objectsOf, objectTable_keys]
    exact FirstUse.nodup_eraseDups _
  have ordered : (objectsOf files folder).keys.Pairwise fun left right => ¬right < left := by
    rw [objectsOf, objectTable_keys]
    exact (List.pairwise_map.mpr (objectsIn_ascending files folder)).sublist (FirstUse.eraseDups_sublist _)
  refine List.pairwise_map.mp ((ordered.and distinct).imp ?_)
  rintro left right ⟨notBehind, different⟩
  exact Decidable.byContradiction fun notBefore => different (List.le_antisymm notBehind notBefore)

/-- Folders of files that look-up cannot tell apart hold the same objects in the same order. -/
theorem objectsOf_same (files other : FileTree) (folder : Location)
    (same : ∀ name documented,
      Documents files folder name documented ↔ Documents other folder name documented) :
    objectsOf files folder = objectsOf other folder := by
  have distinct (tree : FileTree) : (objectsOf tree folder).entries.Nodup := by
    refine (objectsOf_ascending tree folder).imp ?_
    rintro left _ before rfl
    exact List.lt_irrefl _ before
  have perm : (objectsOf files folder).entries.Perm (objectsOf other folder).entries := by
    rw [List.perm_ext_iff_of_nodup (distinct files) (distinct other)]
    rintro ⟨name, documented⟩
    rw [mem_objectsOf, mem_objectsOf, same]
  have entries := perm.eq_of_pairwise (fun _ _ _ _ before behind => absurd before (List.lt_asymm behind))
    (objectsOf_ascending files folder) (objectsOf_ascending other folder)
  exact congrArg Registry.mk entries

end Manual

end ScriptSense
