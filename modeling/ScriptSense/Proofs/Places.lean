import ScriptSense.Text
import ScriptSense.Proofs.Class

/-!
Places in a text by their byte offsets. A place between characters is a boundary; the text can be cut
there and nowhere else. Two texts have the same layout if they are of one length, their lines end at
the same offsets, and every boundary of the first is one of the second.
-/
namespace ScriptSense

namespace Text

def boundaries : Text → List Nat
  | [] => [0]
  | first :: rest => 0 :: (boundaries rest).map (first.utf8Size + ·)

def offsetsOf (c : Char) : Text → List Nat
  | [] => []
  | first :: rest =>
      let later := (offsetsOf c rest).map (first.utf8Size + ·)
      if first = c then 0 :: later else later

def dropBytes : Nat → Text → Text
  | _, [] => []
  | size, first :: rest =>
      if first.utf8Size ≤ size then dropBytes (size - first.utf8Size) rest else first :: rest

theorem byteLength_append (front back : Text) :
    byteLength (front ++ back) = byteLength front + byteLength back := by
  induction front with
  | nil => simp [byteLength]
  | cons first front ih =>
      rw [List.cons_append, byteLength, ih, byteLength, Nat.add_assoc]

theorem byteLength_narrow (text : Text) (narrow : ∀ c ∈ text, c.utf8Size = 1) :
    byteLength text = text.length := by
  induction text with
  | nil => rfl
  | cons first rest ih =>
      have here := narrow first List.mem_cons_self
      have later := ih fun c member => narrow c (List.mem_cons_of_mem first member)
      rw [byteLength, here, later, List.length_cons, Nat.add_comm]

theorem byteLength_spaces (count : Nat) : byteLength (spaces count) = count := by
  rw [byteLength_narrow, spaces, List.length_replicate]
  intro c member
  rw [List.eq_of_mem_replicate member]
  rfl

theorem mem_boundaries (offset : Nat) (text : Text) :
    offset ∈ boundaries text ↔ ∃ front back, text = front ++ back ∧ offset = byteLength front := by
  induction text generalizing offset with
  | nil => simp [boundaries, byteLength]
  | cons first rest ih =>
      rw [boundaries, List.mem_cons, List.mem_map]
      constructor
      · rintro (rfl | ⟨earlier, member, rfl⟩)
        · exact ⟨[], first :: rest, rfl, rfl⟩
        · obtain ⟨front, back, rfl, rfl⟩ := (ih earlier).mp member
          exact ⟨first :: front, back, rfl, rfl⟩
      · rintro ⟨front, back, split, rfl⟩
        cases front with
        | nil => exact .inl rfl
        | cons other front =>
            rw [List.cons_append, List.cons.injEq] at split
            obtain ⟨rfl, rfl⟩ := split
            exact .inr ⟨byteLength front, (ih _).mpr ⟨front, back, rfl, rfl⟩, rfl⟩

theorem mem_boundaries_append (offset : Nat) (front back : Text) :
    offset ∈ boundaries (front ++ back) ↔
      offset ∈ boundaries front ∨ ∃ later ∈ boundaries back, offset = byteLength front + later := by
  constructor
  · intro member
    obtain ⟨left, right, split, rfl⟩ := (mem_boundaries offset _).mp member
    rcases List.append_eq_append_iff.mp split with ⟨middle, rfl, rfl⟩ | ⟨middle, rfl, rfl⟩
    · refine .inr ⟨byteLength middle, (mem_boundaries _ _).mpr ⟨middle, right, rfl, rfl⟩, ?_⟩
      exact byteLength_append front middle
    · exact .inl ((mem_boundaries _ _).mpr ⟨left, middle, rfl, rfl⟩)
  · rintro (member | ⟨later, member, rfl⟩)
    · obtain ⟨left, right, rfl, rfl⟩ := (mem_boundaries offset front).mp member
      exact (mem_boundaries _ _).mpr ⟨left, right ++ back, List.append_assoc _ _ _, rfl⟩
    · obtain ⟨left, right, rfl, rfl⟩ := (mem_boundaries later back).mp member
      exact (mem_boundaries _ _).mpr
        ⟨front ++ left, right, (List.append_assoc _ _ _).symm, (byteLength_append _ _).symm⟩

/-- A text of one-byte characters can be cut at every offset up to its end. -/
theorem boundaries_narrow (text : Text) (narrow : ∀ c ∈ text, c.utf8Size = 1) (offset : Nat)
    (bound : offset ≤ byteLength text) : offset ∈ boundaries text := by
  rw [byteLength_narrow text narrow] at bound
  refine (mem_boundaries offset text).mpr
    ⟨text.take offset, text.drop offset, (List.take_append_drop offset text).symm, ?_⟩
  have front := byteLength_narrow (text.take offset) fun c member =>
    narrow c (List.mem_of_mem_take member)
  rw [front, List.length_take_of_le bound]

theorem boundary_le (offset : Nat) (text : Text) (boundary : offset ∈ boundaries text) :
    offset ≤ byteLength text := by
  obtain ⟨front, back, rfl, rfl⟩ := (mem_boundaries offset text).mp boundary
  rw [byteLength_append]
  exact Nat.le_add_right _ _

theorem cut_append (front back : Text) :
    takeBytes (byteLength front) (front ++ back) = front ∧
      dropBytes (byteLength front) (front ++ back) = back := by
  induction front with
  | nil =>
      cases back with
      | nil => exact ⟨rfl, rfl⟩
      | cons first rest =>
          have wide := first.utf8Size_pos
          rw [List.nil_append, takeBytes, dropBytes, byteLength, if_neg (by omega),
            if_neg (by omega)]
          exact ⟨rfl, rfl⟩
  | cons first front ih =>
      have fits : first.utf8Size ≤ byteLength (first :: front) := Nat.le_add_right _ _
      have rest : byteLength (first :: front) - first.utf8Size = byteLength front :=
        Nat.add_sub_cancel_left _ _
      rw [List.cons_append, takeBytes, dropBytes, if_pos fits, if_pos fits, rest, ih.1, ih.2]
      exact ⟨rfl, rfl⟩

theorem takeBytes_append (front back : Text) :
    takeBytes (byteLength front) (front ++ back) = front :=
  (cut_append front back).1

theorem dropBytes_append (front back : Text) :
    dropBytes (byteLength front) (front ++ back) = back :=
  (cut_append front back).2

theorem takeBytes_behind (front back : Text) (offset : Nat) :
    takeBytes (byteLength front + offset) (front ++ back) = front ++ takeBytes offset back := by
  induction front with
  | nil => simp [byteLength]
  | cons first front ih =>
      have fits : first.utf8Size ≤ byteLength (first :: front) + offset := by
        rw [byteLength]
        omega
      have rest : byteLength (first :: front) + offset - first.utf8Size = byteLength front + offset := by
        rw [byteLength]
        omega
      rw [List.cons_append, takeBytes, if_pos fits, rest, ih, List.cons_append]

theorem byteLength_takeBytes (offset : Nat) (text : Text) (boundary : offset ∈ boundaries text) :
    byteLength (takeBytes offset text) = offset := by
  obtain ⟨front, back, rfl, rfl⟩ := (mem_boundaries offset text).mp boundary
  rw [takeBytes_append]

theorem offsetsOf_append (c : Char) (front back : Text) :
    offsetsOf c (front ++ back) =
      offsetsOf c front ++ (offsetsOf c back).map (byteLength front + ·) := by
  induction front with
  | nil => simp [offsetsOf, byteLength]
  | cons first front ih =>
      have moved : ((offsetsOf c back).map (byteLength front + ·)).map (first.utf8Size + ·) =
          (offsetsOf c back).map (byteLength (first :: front) + ·) := by
        rw [List.map_map]
        refine List.map_congr_left fun offset _ => ?_
        exact (Nat.add_assoc _ _ _).symm
      simp only [List.cons_append, offsetsOf, ih, List.map_append, moved]
      split
      · rfl
      · rfl

theorem offsetsOf_absent (c : Char) (text : Text) (absent : c ∉ text) : offsetsOf c text = [] := by
  induction text with
  | nil => rfl
  | cons first rest ih =>
      rw [List.mem_cons, not_or] at absent
      simp [offsetsOf, Ne.symm absent.1, ih absent.2]

end Text

namespace Cursor

theorem reach_prefix (line column : Nat) (text : Text) : reach line column text <+: text := by
  fun_induction reach line column text with
  | case1 => exact List.prefix_refl _
  | case2 _ _ first rest ih => exact (List.prefix_cons_inj first).mpr ih
  | case3 => exact List.nil_prefix
  | case4 => exact List.nil_prefix
  | case5 _ first rest _ ih => exact (List.prefix_cons_inj first).mpr ih

theorem offset_boundary (cursor : Cursor) (text : Text) :
    cursor.offset text ∈ Text.boundaries text := by
  obtain ⟨back, split⟩ := reach_prefix cursor.line cursor.column text
  exact (Text.mem_boundaries _ _).mpr ⟨cursor.before text, back, split.symm, rfl⟩

def ofOffset (offset : Nat) (text : Text) : Cursor :=
  let front := Text.takeBytes offset text
  ⟨front.count '\n', (Text.takeEndWhile (· != '\n') front).length⟩

theorem reach_line (front back : Text) (flat : '\n' ∉ front) :
    reach 0 front.length (front ++ back) = front := by
  induction front with
  | nil => cases back <;> rfl
  | cons first front ih =>
      rw [List.mem_cons, not_or] at flat
      rw [List.length_cons, List.cons_append, reach, if_neg (Ne.symm flat.1), ih flat.2]

theorem reach_lines (lead rest : Text) (column : Nat) :
    reach ((lead ++ ['\n']).count '\n') column (lead ++ '\n' :: rest) =
      lead ++ '\n' :: reach 0 column rest := by
  induction lead with
  | nil => rfl
  | cons first lead ih =>
      have later : (lead ++ ['\n']).count '\n' = lead.count '\n' + 1 := by simp
      rw [later] at ih
      by_cases line : first = '\n'
      · rw [line, List.cons_append, List.count_cons_self, later, List.cons_append, reach, if_pos rfl, ih,
          List.cons_append]
      · rw [List.cons_append, List.count_cons_of_ne line, later, List.cons_append, reach, if_neg line, ih,
          List.cons_append]

theorem reach_front (front back : Text) :
    reach (front.count '\n') (Text.takeEndWhile (· != '\n') front).length (front ++ back) = front := by
  have inLine (last : Text) (flat : '\n' ∉ last) : ∀ c ∈ last, (c != '\n') = true := by
    intro c member
    rw [bne_iff_ne]
    rintro rfl
    exact flat member
  by_cases broken : '\n' ∈ front
  · obtain ⟨last, lead, split, flat⟩ := List.eq_append_cons_of_mem (List.mem_reverse.mpr broken)
    have lines : front = (lead.reverse ++ ['\n']) ++ last.reverse := by
      rw [← List.reverse_reverse front, split]
      simp
    have flatLast : '\n' ∉ last.reverse := mt List.mem_reverse.mp flat
    have stop : Stops (· != '\n') (lead.reverse ++ ['\n']).reverse := by simp [Stops]
    rw [lines, Text.takeEndWhile_run _ _ _ (inLine _ flatLast) stop, List.count_append,
      List.count_eq_zero.mpr flatLast, Nat.add_zero, List.append_assoc, List.append_assoc,
      List.singleton_append, reach_lines, reach_line _ _ flatLast]
    simp
  · have whole := Text.takeEndWhile_run (· != '\n') [] front (inLine front broken) (by simp [Stops])
    rw [List.nil_append] at whole
    rw [whole, List.count_eq_zero.mpr broken, reach_line front back broken]

theorem before_ofOffset (offset : Nat) (text : Text) (boundary : offset ∈ Text.boundaries text) :
    (ofOffset offset text).before text = Text.takeBytes offset text := by
  obtain ⟨front, back, rfl, rfl⟩ := (Text.mem_boundaries offset text).mp boundary
  rw [ofOffset, Text.takeBytes_append]
  exact reach_front front back

end Cursor

/-- The two texts are of one length, with line ends at the same offsets, and the second can be cut
wherever the first one can. -/
structure SameLayout (source result : Text) : Prop where
  length : Text.byteLength result = Text.byteLength source
  lines : Text.offsetsOf '\n' result = Text.offsetsOf '\n' source
  boundaries : Text.boundaries source ⊆ Text.boundaries result

namespace SameLayout

theorem refl (text : Text) : SameLayout text text := ⟨rfl, rfl, List.Subset.refl _⟩

theorem trans {source middle result : Text} (first : SameLayout source middle)
    (second : SameLayout middle result) : SameLayout source result where
  length := second.length.trans first.length
  lines := second.lines.trans first.lines
  boundaries := List.Subset.trans first.boundaries second.boundaries

theorem append {source result laterSource laterResult : Text} (first : SameLayout source result)
    (second : SameLayout laterSource laterResult) :
    SameLayout (source ++ laterSource) (result ++ laterResult) where
  length := by
    rw [Text.byteLength_append, Text.byteLength_append, first.length, second.length]
  lines := by
    rw [Text.offsetsOf_append, Text.offsetsOf_append, first.lines, second.lines, first.length]
  boundaries := by
    intro offset member
    rcases (Text.mem_boundaries_append offset _ _).mp member with within | ⟨later, behind, rfl⟩
    · exact (Text.mem_boundaries_append _ _ _).mpr (.inl (first.boundaries within))
    · refine (Text.mem_boundaries_append _ _ _).mpr (.inr ⟨later, second.boundaries behind, ?_⟩)
      rw [first.length]

/-- Characters that end no line may make room for as many bytes of other ones. -/
theorem narrow {source result : Text} (length : Text.byteLength result = Text.byteLength source)
    (unbroken : '\n' ∉ source) (flat : '\n' ∉ result) (one_byte : ∀ c ∈ result, c.utf8Size = 1) :
    SameLayout source result where
  length := length
  lines := by rw [Text.offsetsOf_absent _ _ unbroken, Text.offsetsOf_absent _ _ flat]
  boundaries := by
    intro offset member
    have bound := Text.boundary_le offset source member
    exact Text.boundaries_narrow result one_byte offset (length ▸ bound)

theorem flatMap {α : Type} (list : List α) (source result : α → Text)
    (same : ∀ x ∈ list, SameLayout (source x) (result x)) :
    SameLayout (list.flatMap source) (list.flatMap result) := by
  induction list with
  | nil => exact refl []
  | cons first rest ih =>
      have here := same first List.mem_cons_self
      exact here.append (ih fun x member => same x (List.mem_cons_of_mem first member))

end SameLayout

end ScriptSense
