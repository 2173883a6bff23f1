import TapeC.Listing
import TapeC.Proofs.Partners

/-!
The unmatched brackets of a text, by their byte offsets.

The analysis counts instructions and a listing counts bytes.  A scan does not care
which: renaming all indexes commutes with every step (`Scan.reindex_step`), so the
scan of the instructions, renamed by the table of offsets, is the scan of the text
itself (`Scan.reindex_offsetOf_run`).  What the scan says about partners then holds
of the offsets as they stand in a listing.
-/

namespace TapeC

open Source

/-! ## Renaming the indexes of a scan -/

namespace Scan

def reindex (f : Nat → Nat) (s : Scan) : Scan :=
  ⟨s.level, s.opened.map f, s.strays.map f⟩

theorem leftover_reindex (f : Nat → Nat) (s : Scan) :
    (s.reindex f).leftover = s.leftover.map f := by
  rw [leftover, leftover, List.map_append, List.map_reverse, List.map_reverse]
  rfl

theorem reindex_step (f : Nat → Nat) (s : Scan) (index : Nat) (b : UInt8) :
    (s.step index b).reindex f = (s.reindex f).step (f index) b := by
  by_cases hb : IsBracket b
  · rcases hb with rfl | rfl
    · rfl
    · obtain ⟨level, opened, strays⟩ := s
      cases opened with
      | nil => rfl
      | cons _ _ => rfl
  · rw [step_of_not_isBracket hb, step_of_not_isBracket hb]

theorem reindex_run {f : Nat → Nat} {index index' : Nat} {text : Text}
    (hf : ∀ i < text.length, f (index + i) = index' + i) (s : Scan) :
    (s.run index text).reindex f = (s.reindex f).run index' text := by
  induction text generalizing s index index' with
  | nil => rfl
  | cons b rest ih =>
    have hhead : f index = index' := hf 0 (Nat.zero_lt_succ _)
    have htail : ∀ i < rest.length, f (index + 1 + i) = index' + 1 + i := by
      intro i hi
      have := hf (i + 1) (Nat.succ_lt_succ hi)
      rw [Nat.add_assoc, Nat.add_comm 1 i, this]
      omega
    rw [run, run, ih htail, reindex_step, hhead]

end Scan

/-! ## The table of offsets -/

namespace Source

theorem isInstruction_of_isBracket {b : UInt8} (h : IsBracket b) : isInstruction b = true := by
  rcases h with rfl | rfl
  · rfl
  · rfl

theorem offsets_cons (b : UInt8) (x : Text) :
    offsets (b :: x) = (if isInstruction b then [0] else []) ++ (offsets x).map (· + 1) := by
  have hshift : ((x.zipIdx 1).filter fun p => isInstruction p.1).map Prod.snd =
      (offsets x).map (· + 1) := by
    rw [offsets, List.zipIdx_succ, List.filter_map, List.map_map, List.map_map]
    rfl
  rw [offsets, List.zipIdx_cons, Nat.zero_add, List.filter_cons]
  by_cases hb : isInstruction b
  · rw [if_pos hb, if_pos hb, List.map_cons, hshift]
    rfl
  · rw [if_neg hb, if_neg hb, hshift]
    rfl

/-- The byte offset of the instruction with a given index. -/
def offsetOf (text : Text) (k : Nat) : Nat := (offsets text).getD k 0

theorem getElem?_offsets {text : Text} {k : Nat} (h : k < (filtered text).length) :
    (offsets text)[k]? = some (offsetOf text k) := by
  rw [← length_offsets] at h
  rw [offsetOf, List.getD_eq_getElem?_getD, List.getElem?_eq_getElem h, Option.getD_some]

/-- Within the table nothing is lost by looking up. -/
theorem locate_eq_map {text : Text} {indexes : List Nat}
    (h : ∀ k ∈ indexes, k < (filtered text).length) :
    locate text indexes = indexes.map (offsetOf text) := by
  induction indexes with
  | nil => rfl
  | cons k rest ih =>
    have hk : (offsets text).toArray[k]? = some (offsetOf text k) := by
      rw [List.getElem?_toArray]
      exact getElem?_offsets (h k List.mem_cons_self)
    rw [List.map_cons, ← ih fun m hm => h m (List.mem_cons_of_mem k hm)]
    exact List.filterMap_cons_some hk

end Source

/-! ## The scan of the text itself -/

namespace Scan

/-- Scanning the instructions of a text and then renaming their indexes is scanning
the text, if the renaming follows the offsets of the instructions. -/
theorem reindex_run_filtered {f : Nat → Nat} (text : Text) (s : Scan) (k index : Nat)
    (hf : ∀ m n, (offsets text)[m]? = some n → f (k + m) = index + n) :
    (s.run k (filtered text)).reindex f = (s.reindex f).run index text := by
  induction text generalizing s k index with
  | nil => rfl
  | cons b rest ih =>
    by_cases hb : isInstruction b
    · rw [offsets_cons, if_pos hb] at hf
      have hhead : f k = index := hf 0 0 rfl
      have htail : ∀ m n, (offsets rest)[m]? = some n → f (k + 1 + m) = index + 1 + n := by
        intro m n hm
        have := hf (m + 1) (n + 1) (by
          rw [List.singleton_append, List.getElem?_cons_succ, List.getElem?_map, hm]
          rfl)
        rw [Nat.add_assoc, Nat.add_comm 1 m, this]
        omega
      rw [filtered, List.filter_cons_of_pos hb, run, run, ← hhead, ← reindex_step, hhead]
      exact ih _ _ _ htail
    · rw [offsets_cons, if_neg hb, List.nil_append] at hf
      have htail : ∀ m n, (offsets rest)[m]? = some n → f (k + m) = index + 1 + n := by
        intro m n hm
        have := hf m (n + 1) (by rw [List.getElem?_map, hm]; rfl)
        omega
      have hplain : ¬ IsBracket b := fun h => hb (isInstruction_of_isBracket h)
      rw [filtered, List.filter_cons_of_neg hb, run, step_of_not_isBracket hplain]
      exact ih _ _ _ htail

theorem reindex_offsetOf_run (text : Text) :
    (start.run 0 (filtered text)).reindex (offsetOf text) = start.run 0 text := by
  refine reindex_run_filtered text start 0 0 fun m n hm => ?_
  rw [Nat.zero_add, Nat.zero_add, offsetOf, List.getD_eq_getElem?_getD, hm, Option.getD_some]

end Scan

/-! ## Listings -/

namespace Listing

theorem unmatched_lt_length (text : Text) :
    ∀ k ∈ (Balance.ofCode (Source.filtered text)).unmatched, k < (Source.filtered text).length := by
  rw [Balance.unmatched_ofCode]
  exact (Scan.skeleton_run (Source.filtered text)).lt_length

theorem unmatched_ofText (p : Prelude) (text : Text) :
    (ofText p text).unmatched = (Scan.start.run 0 text).leftover :=
  calc (ofText p text).unmatched
      = (Balance.ofCode (Source.filtered text)).unmatched.map (offsetOf text) :=
        locate_eq_map (unmatched_lt_length text)
    _ = ((Scan.start.run 0 (Source.filtered text)).reindex (offsetOf text)).leftover := by
        rw [Balance.unmatched_ofCode, Scan.leftover_reindex]
    _ = (Scan.start.run 0 text).leftover := by rw [Scan.reindex_offsetOf_run]

/-- The unmatched brackets of a listing are the offsets of just those brackets of
the text that have no partner, in ascending order.  Each index of the analysis is
found in the table of offsets, so none is dropped on the way. -/
theorem unmatched_iff_no_partner (p : Prelude) (text : Text) :
    (ofText p text).unmatched.Pairwise (· < ·) ∧
      (∀ o, o ∈ (ofText p text).unmatched ↔
        (∃ b, text[o]? = some b ∧ IsBracket b) ∧ ¬ HasPartner text o) ∧
      (ofText p text).balance.unmatched.map ((offsets text)[·]?) =
        (ofText p text).unmatched.map some := by
  refine ⟨?_, fun o => ?_, ?_⟩
  · rw [unmatched_ofText]
    exact (Scan.skeleton_run text).ascending
  · rw [unmatched_ofText]
    exact Scan.mem_leftover_iff text o
  · have hlocate : (ofText p text).unmatched =
        (ofText p text).balance.unmatched.map (offsetOf text) :=
      locate_eq_map (unmatched_lt_length text)
    rw [hlocate, List.map_map]
    exact List.map_congr_left fun k hk => getElem?_offsets (unmatched_lt_length text k hk)

end Listing
end TapeC
