import Mathlib.Data.List.Sort
import TapeC.Balance

/-!
Merging two lists.

The definition of a merge moves whole runs of the second list.  Seen one element at a
time, it compares the two heads and takes the smaller one, that of the second list if
they are equal (`merge_cons_cons`).  In the analysis of a program all strays stand before
all open loops, so the first list is used up before the second is touched; here the lists
are arbitrary.  A merge interleaves them, in order or not.  Over a linear order it is the
merge of the library with the lists exchanged, which keeps lists in order.
-/

namespace TapeC

variable {α : Type}

/-! ## Interleavings -/

/-- The third list is made up of the other two, and each of them keeps its order. -/
inductive Interleaving : List α → List α → List α → Prop where
  | nil : Interleaving [] [] []
  | left (x : α) {xs ys zs : List α} (h : Interleaving xs ys zs) :
      Interleaving (x :: xs) ys (x :: zs)
  | right (y : α) {xs ys zs : List α} (h : Interleaving xs ys zs) :
      Interleaving xs (y :: ys) (y :: zs)

namespace Interleaving

variable {xs ys zs : List α}

theorem perm (h : Interleaving xs ys zs) : zs.Perm (xs ++ ys) := by
  induction h with
  | nil => exact .nil
  | left x _ ih => exact ih.cons x
  | right y _ ih => exact (ih.cons y).trans List.perm_middle.symm

theorem swap (h : Interleaving xs ys zs) : Interleaving ys xs zs := by
  induction h with
  | nil => exact .nil
  | left x _ ih => exact ih.right x
  | right y _ ih => exact ih.left y

theorem sublist_left (h : Interleaving xs ys zs) : xs.Sublist zs := by
  induction h with
  | nil => exact .slnil
  | left x _ ih => exact ih.cons_cons x
  | right y _ ih => exact ih.cons y

theorem sublist_right (h : Interleaving xs ys zs) : ys.Sublist zs := h.swap.sublist_left

/-- A run of the second list can go first. -/
theorem append_right (run : List α) (h : Interleaving xs ys zs) :
    Interleaving xs (run ++ ys) (run ++ zs) := by
  induction run with
  | nil => exact h
  | cons y run ih => exact ih.right y

theorem nil_left (ys : List α) : Interleaving [] ys ys := by
  simpa using Interleaving.nil.append_right ys

end Interleaving

/-! ## Merges of any two lists -/

theorem interleaving_merge [LT α] [DecidableLT α] (xs ys : List α) :
    Interleaving xs ys (merge xs ys) := by
  induction xs generalizing ys with
  | nil => exact .nil_left ys
  | cons x xs ih =>
    have hrun := ((ih (ys.dropWhile fun y => ¬ x < y)).left x).append_right
      (ys.takeWhile fun y => ¬ x < y)
    rwa [List.takeWhile_append_dropWhile] at hrun

/-! ## Merges of lists in order -/

section Order

variable [LinearOrder α]

/-- The library prefers its first list among equals, so the lists change places. -/
theorem merge_eq_list_merge (xs ys : List α) :
    merge xs ys = ys.merge xs (fun y x => decide (y ≤ x)) := by
  induction xs generalizing ys with
  | nil => rw [merge, List.merge_right]
  | cons x xs ihxs =>
    -- The induction on `ys` is for the steps that leave the first list as it is.
    induction ys with
    | nil => rw [merge_nil_right, List.nil_merge]
    | cons y ys ihys =>
      rw [merge_cons_cons, List.cons_merge_cons, ihxs, ihys]
      by_cases h : x < y
      · simp [h, not_le.2 h]
      · simp [h, not_lt.1 h]

theorem pairwise_merge {xs ys : List α} (hxs : xs.Pairwise (· ≤ ·)) (hys : ys.Pairwise (· ≤ ·)) :
    (merge xs ys).Pairwise (· ≤ ·) := by
  rw [merge_eq_list_merge]
  exact hys.merge hxs

/-- A merge of any two lists interleaves them: nothing is lost, added or repeated, and
what comes from one list stays in the order of that list.  If both ascend, so does the
merge. -/
theorem merge_interleaves_and_ascends (a b : List α) :
    Interleaving a b (merge a b) ∧
    ((merge a b).Perm (a ++ b) ∧ a.Sublist (merge a b) ∧ b.Sublist (merge a b)) ∧
    (a.Pairwise (· ≤ ·) → b.Pairwise (· ≤ ·) → (merge a b).Pairwise (· ≤ ·)) := by
  have h := interleaving_merge a b
  exact ⟨h, ⟨h.perm, h.sublist_left, h.sublist_right⟩, pairwise_merge⟩

end Order

/-- Each list has the smaller head once, the heads are equal twice, and the second list
ends before the first. -/
theorem merge_interleaves_and_ascends_ties :
    let a : List Int := [-2, 3, 7]
    let b : List Int := [-5, 3, 3]
    a.Pairwise (· ≤ ·) ∧ b.Pairwise (· ≤ ·) ∧ merge a b = [-5, -2, 3, 3, 3, 7] ∧
      Interleaving a b (merge a b) ∧ (merge a b).Pairwise (· ≤ ·) := by
  intro a b
  have ha : a.Pairwise (· ≤ ·) := by decide
  have hb : b.Pairwise (· ≤ ·) := by decide
  obtain ⟨hinterleaving, _, hascends⟩ := merge_interleaves_and_ascends a b
  exact ⟨ha, hb, by decide, hinterleaving, hascends ha hb⟩

end TapeC
