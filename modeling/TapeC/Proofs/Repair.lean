import Mathlib.Data.Finset.Card
import TapeC.Proofs.Counter

/-!
The unmatched brackets as a repair.

A code that is not in order can be brought into order by taking instructions out.  The
unmatched brackets are such a choice, since what they leave is a row of nested pieces,
and no choice is smaller.  For the lower bound the code is cut after its last stray
loop end (`Scan.Skeleton.exists_cut`).  Up to the cut the counter falls by one for each
stray, and after it the counter rises by one for each loop left open.  A code in order
does neither, and one instruction less moves the counter by one at most
(`Counter.rise_sub_le`), so each side of the cut has to lose as many instructions as it
has unmatched brackets.
-/

namespace TapeC

open Source

/-- The code without the instructions at the given indexes. -/
def without (code : Text) (indexes : Finset Nat) : Text :=
  (code.zipIdx.filter fun x => x.2 ∉ indexes).map Prod.fst

/-! ## Taking instructions out -/

theorem without_sublist (code : Text) (indexes : Finset Nat) :
    (without code indexes).Sublist code := by
  have hkept := (List.filter_sublist (p := fun x => decide (x.2 ∉ indexes))
    (l := code.zipIdx)).map Prod.fst
  rwa [List.zipIdx_map_fst] at hkept

/-- No more instructions are gone than there are indexes. -/
theorem length_le_without (code : Text) (indexes : Finset Nat) :
    code.length ≤ (without code indexes).length + indexes.card := by
  have hsplit := code.zipIdx.length_eq_length_filter_add fun x => decide (x.2 ∉ indexes)
  have hgone : (code.zipIdx.filter fun x => !decide (x.2 ∉ indexes)).length ≤ indexes.card := by
    have hnodup : ((code.zipIdx.filter fun x => !decide (x.2 ∉ indexes)).map Prod.snd).Nodup := by
      refine List.Nodup.sublist (List.filter_sublist.map Prod.snd) ?_
      rw [List.zipIdx_map_snd]
      exact List.nodup_range'
    rw [← List.length_map Prod.snd, ← List.toFinset_card_of_nodup hnodup]
    refine Finset.card_le_card fun i hi => ?_
    obtain ⟨x, hx, rfl⟩ := List.mem_map.1 (List.mem_toFinset.1 hi)
    simpa using (List.mem_filter.1 hx).2
  rw [List.length_zipIdx] at hsplit
  rw [without, List.length_map]
  omega

theorem without_empty (code : Text) : without code ∅ = code := by
  rw [without, List.filter_eq_self.2 (fun _ _ => by simp), List.zipIdx_map_fst]

/-- Taking out one more instruction, behind all others that are taken out. -/
theorem without_append_cons {a : Text} {indexes : Finset Nat} (h : ∀ i ∈ indexes, i < a.length)
    (b : UInt8) (x : Text) :
    without (a ++ b :: x) (insert a.length indexes) = without a indexes ++ x := by
  have hbefore : a.zipIdx.filter (fun y => decide (y.2 ∉ insert a.length indexes)) =
      a.zipIdx.filter fun y => decide (y.2 ∉ indexes) := by
    refine List.filter_congr fun y hy => ?_
    have hlt : y.2 < a.length := List.snd_lt_of_mem_zipIdx hy
    have hne : y.2 ≠ a.length := Nat.ne_of_lt hlt
    simp [hne]
  have hbehind : (x.zipIdx (a.length + 1)).filter
      (fun y => decide (y.2 ∉ insert a.length indexes)) = x.zipIdx (a.length + 1) := by
    refine List.filter_eq_self.2 fun y hy => ?_
    have hle : a.length + 1 ≤ y.2 := List.le_snd_of_mem_zipIdx hy
    have hne : y.2 ≠ a.length := by omega
    have hout : y.2 ∉ indexes := fun hmem => by
      have := h y.2 hmem
      omega
    simp [hne, hout]
  rw [without, without, List.zipIdx_append, Nat.zero_add, List.zipIdx_cons, List.filter_append,
    List.filter_cons_of_neg (by simp), hbefore, hbehind, List.map_append, List.zipIdx_map_fst]

/-! ## What the unmatched brackets leave -/

namespace Scan.Skeleton

theorem nested_without {text : Text} {s : Scan} (h : Skeleton text s) :
    Nested (filtered (without text s.leftover.toFinset)) := by
  refine leftover_induction (P := fun t l => Nested (filtered (without t l.toFinset))) ?_ ?_ h
  · intro x hx
    rwa [List.toFinset_nil, without_empty]
  · intro a b x s hs _ hx ih
    have hbefore : ∀ i ∈ s.leftover.toFinset, i < a.length :=
      fun i hi => hs.lt_length i (List.mem_toFinset.1 hi)
    have hlast : (s.leftover ++ [a.length]).toFinset = insert a.length s.leftover.toFinset := by
      ext i
      simp
    rw [hlast, without_append_cons hbefore, filtered_append]
    exact ih.append hx

end Scan.Skeleton

/-! ## The lower bound -/

/-- Each instruction that is taken out moves the counter by one at most. -/
theorem Counter.rise_sub_le {x y : Text} (h : x.Sublist y) :
    rise y - rise x ≤ y.length - x.length ∧ rise x - rise y ≤ y.length - x.length := by
  have hlength := h.length_le
  have hstart := h.le_count Instruction.loopStart.byte
  have hstart' := h.count_le Instruction.loopStart.byte
  have hend := h.le_count Instruction.loopEnd.byte
  have hend' := h.count_le Instruction.loopEnd.byte
  unfold rise
  omega

/-- A nested code inside of a text is shorter by at least the brackets that the text
has left over. -/
theorem Scan.Skeleton.length_leftover_le {text x : Text} {s : Scan} (h : Skeleton text s)
    (hx : x.Sublist text) (hnested : Nested (filtered x)) :
    s.leftover.length + x.length ≤ text.length := by
  obtain ⟨a, b, rfl, ha, hb⟩ := h.exists_cut
  obtain ⟨c, d, rfl, hc, hd⟩ := List.sublist_append_iff.1 hx
  have hbegin := hnested.one_le_after (List.prefix_append c d)
  have hend := hnested.after_eq_one
  rw [Counter.after_eq] at hbegin hend
  rw [Counter.rise_append] at hend
  -- a nested code does not fall before the cut and does not climb after it
  have hfall := (Counter.rise_sub_le hc).2
  have hclimb := (Counter.rise_sub_le hd).1
  simp only [leftover, List.length_append, List.length_reverse]
  omega

namespace Balance

/-- Without the unmatched brackets a code is in order, and it is not in order without
any smaller choice of instructions. -/
theorem unmatched_minimum_repair (code : Text) :
    (ofCode (without code (ofCode code).unmatched.toFinset)).inOrder = true ∧
    (ofCode code).unmatched.toFinset.card = (ofCode code).unmatched.length ∧
    ∀ indexes : Finset Nat, (ofCode (without code indexes)).inOrder = true →
      (ofCode code).unmatched.length ≤ indexes.card := by
  have hskeleton := Scan.skeleton_run code
  rw [unmatched_ofCode]
  refine ⟨?_, ?_, ?_⟩
  · rw [inOrder_iff_nested]
    exact hskeleton.nested_without
  · exact List.toFinset_card_of_nodup (hskeleton.ascending.imp Nat.ne_of_lt)
  · intro indexes hgood
    have hnested := (inOrder_iff_nested _).1 hgood
    have hshorter := hskeleton.length_leftover_le (without_sublist code indexes) hnested
    have hgone := length_le_without code indexes
    omega

/-- A stray loop end and a loop left open.  Another repair takes out the inner loop start
in place of the outer one, and it is no smaller. -/
theorem unmatched_minimum_repair_other :
    let code := Text.ascii "]+[[-]"
    (ofCode code).unmatched = [0, 2] ∧
      (ofCode (without code {0, 3})).inOrder = true ∧
      (ofCode code).unmatched.length ≤ ({0, 3} : Finset Nat).card := by
  intro code
  have hgood : (ofCode (without code {0, 3})).inOrder = true := by decide
  exact ⟨by decide, hgood, (unmatched_minimum_repair code).2.2 {0, 3} hgood⟩

end Balance
end TapeC
