import Mathlib.Data.List.Induction
import Mathlib.Data.List.Nodup

/-!
Lists that keep the first use of each element. An element at the end of a list is one of those before
it or comes behind them all, so what a list keeps is a beginning of what a longer list keeps.
-/
namespace ScriptSense

namespace FirstUse

variable {α : Type} [BEq α] [LawfulBEq α]

theorem eraseDups_concat (list : List α) (last : α) :
    (list ++ [last]).eraseDups =
      if last ∈ list then list.eraseDups else list.eraseDups ++ [last] := by
  rw [List.eraseDups_append]
  by_cases known : last ∈ list
  · simp [List.removeAll, known]
  · simp [List.removeAll, known, List.eraseDups_cons]

theorem nodup_eraseDups (list : List α) : list.eraseDups.Nodup := by
  induction list using List.reverseRecOn with
  | nil => simp
  | append_singleton list last ih =>
      rw [eraseDups_concat]
      split
      · exact ih
      · next fresh =>
          rw [← List.concat_eq_append]
          exact List.Nodup.concat (fun old => fresh (List.mem_eraseDups.mp old)) ih

theorem eraseDups_sublist (list : List α) : list.eraseDups.Sublist list := by
  induction list using List.reverseRecOn with
  | nil => simp
  | append_singleton list last ih =>
      rw [eraseDups_concat]
      split
      · exact ih.trans (List.sublist_append_left list [last])
      · exact ih.append_right [last]

theorem eraseDups_perm (list other : List α) (distinct : other.Nodup)
    (same : ∀ element, element ∈ list ↔ element ∈ other) : list.eraseDups.Perm other := by
  rw [List.perm_ext_iff_of_nodup (nodup_eraseDups list) distinct]
  intro element
  rw [List.mem_eraseDups]
  exact same element

theorem eraseDups_prefix (front back : List α) : front.eraseDups <+: (front ++ back).eraseDups := by
  rw [List.eraseDups_append]
  exact List.prefix_append _ _

/-- The kept elements stand in the order of their first uses. -/
theorem eraseDups_ordered (list : List α) :
    list.eraseDups.Pairwise fun one two => list.idxOf one < list.idxOf two := by
  induction list using List.reverseRecOn with
  | nil => simp
  | append_singleton list last ih =>
      have kept (element : α) (used : element ∈ list.eraseDups) :
          (list ++ [last]).idxOf element = list.idxOf element :=
        List.idxOf_append_of_mem (List.mem_eraseDups.mp used)
      have ordered : list.eraseDups.Pairwise fun one two =>
          (list ++ [last]).idxOf one < (list ++ [last]).idxOf two := by
        refine ih.imp_of_mem fun used later before => ?_
        rwa [kept _ used, kept _ later]
      rw [eraseDups_concat]
      split
      · exact ordered
      · next fresh =>
          refine List.pairwise_append.mpr ⟨ordered, List.pairwise_singleton _ _, ?_⟩
          intro one used two isLast
          obtain rfl := List.mem_singleton.mp isLast
          rw [kept one used, List.idxOf_append_of_notMem fresh]
          exact Nat.lt_add_right _ (List.idxOf_lt_length_of_mem (List.mem_eraseDups.mp used))

/-- What comes before an element that the front uses is used by the front. -/
theorem mem_of_before (front back : List α) (first second : α)
    (before : [first, second].Sublist (front ++ back).eraseDups) (used : second ∈ front) :
    first ∈ front := by
  have distinct := nodup_eraseDups (front ++ back)
  rw [List.eraseDups_append] at before distinct
  have apart := List.disjoint_of_nodup_append distinct
  have second_front : second ∈ front.eraseDups := List.mem_eraseDups.mpr used
  obtain ⟨left, right, split, in_front, in_back⟩ := List.sublist_append_iff.mp before
  cases left with
  | nil =>
      rw [List.nil_append] at split
      subst split
      exact absurd (in_back.mem (by simp)) (apart second_front)
  | cons here left =>
      rw [List.cons_append, List.cons.injEq] at split
      obtain ⟨rfl, _⟩ := split
      exact List.mem_eraseDups.mp (in_front.mem List.mem_cons_self)

end FirstUse

end ScriptSense
