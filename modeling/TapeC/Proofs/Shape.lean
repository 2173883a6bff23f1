import TapeC.Proofs.Diagnostics

/-!
The shape of an analysis.

A scan collects stray loop ends and open loops in two lists and counts a level beside
them, and an analysis merges the lists and tests both the level and the result of the
merge.  Along every scan the strays stand before the loops that are open, and the level
is one more than the open loops less the strays: this is what a skeleton says.  So the
merge is an append, the unmatched brackets read `]]…[[`, the level counts them, and of
the two tests one would do.
-/

namespace TapeC

namespace Balance

theorem inOrder_iff_unmatched_eq_nil (code : Text) :
    (ofCode code).inOrder = true ↔ (ofCode code).unmatched = [] :=
  (inOrder_iff_nested code).trans (unmatched_eq_nil_iff code).symm

end Balance

namespace Listing

theorem fault?_eq_none_iff (p : Prelude) (text : Text) :
    (ofText p text).fault? = none ↔ (ofText p text).unmatched = [] := by
  rw [unmatched_eq_nil_iff, fault?]
  split
  · next hgood => exact ⟨fun _ => hgood, fun _ => rfl⟩
  · next hbad => exact ⟨fun h => absurd h (Option.some_ne_none _), fun h => absurd h hbad⟩

/-- The cause is only built where the level or the list is wrong, and the level is never
wrong alone. -/
theorem fault?_ne_unbalanced_nil (p : Prelude) (text : Text) :
    (ofText p text).fault? ≠ some (.unbalanced []) := by
  intro h
  have hsome : (ofText p text).unmatched ≠ [] := by
    intro hnil
    rw [(fault?_eq_none_iff p text).2 hnil] at h
    exact Option.some_ne_none _ h.symm
  rw [fault?] at h
  split at h
  · exact Option.some_ne_none _ h.symm
  · injection h with h
    injection h with h
    exact hsome (List.map_eq_nil_iff.1 h)

end Listing

namespace Balance

/-- The unmatched brackets of any code ascend, the loop ends stand before the loop
starts, and the level is one more than the starts less the ends.  The merge of the
strays and the open loops is their append, so a code is in order just if no bracket is
unmatched.  A listing has a fault just if it has an unmatched bracket, and then the fault
names one. -/
theorem ofCode_shape (code : Text) :
    (ofCode code).unmatched.Pairwise (· < ·) ∧
    (∃ ends starts : Nat,
      (ofCode code).unmatched.map (code[·]?) =
        List.replicate ends (some Instruction.loopEnd.byte) ++
          List.replicate starts (some Instruction.loopStart.byte) ∧
      (ofCode code).level = 1 + starts - ends) ∧
    (let s := Scan.start.run 0 code
     (ofCode code).unmatched = merge s.strays.reverse s.opened.reverse ∧
      merge s.strays.reverse s.opened.reverse = s.strays.reverse ++ s.opened.reverse) ∧
    ((ofCode code).inOrder = true ↔ (ofCode code).unmatched = []) ∧
    ∀ (p : Prelude) (text : Text),
      ((Listing.ofText p text).fault? = none ↔ (Listing.ofText p text).unmatched = []) ∧
      (Listing.ofText p text).fault? ≠ some (.unbalanced []) := by
  have hskeleton := Scan.skeleton_run code
  have hleftover := unmatched_ofCode code
  refine ⟨?_, ⟨_, _, ?_, hskeleton.level_eq⟩, ⟨rfl, hleftover⟩, inOrder_iff_unmatched_eq_nil code,
    fun p text => ⟨Listing.fault?_eq_none_iff p text, Listing.fault?_ne_unbalanced_nil p text⟩⟩
  · rw [hleftover]
    exact hskeleton.ascending
  · rw [hleftover]
    exact hskeleton.map_getElem?_leftover

/-- Level one does not mean order: the stray and the open loop cancel in the level and
stay in the list. -/
example : ofCode (Text.ascii "+]#[-[]") = ⟨1, [1, 3]⟩ := by decide

end Balance
end TapeC
