import Mathlib.Data.List.DropRight
import TapeC.Proofs.Unmatched

/-!
The analysis of one code after another.

What a scan has to know of a code that it passes is what a scan of that code alone
remembers.  The loops that are open close the first stray loop ends of what follows, the
innermost loop the first of them, and all other brackets stay as they are
(`Scan.followedBy`).  Each step of a scan respects this (`Scan.step_followedBy`), so the
analysis of two codes in a row is put together from theirs, at any place where a code is
cut.
-/

namespace TapeC

theorem rdrop_eq_nil_of_le {l : List Nat} {n : Nat} (h : l.length ≤ n) : l.rdrop n = [] := by
  rw [List.rdrop, Nat.sub_eq_zero_of_le h, List.take_zero]

namespace Scan

/-! ## One scan after another -/

/-- The scan `s` after a code that by itself leaves `r`.  Both lists are latest first, so
the loops of `s` close the last strays of the list. -/
def followedBy (s r : Scan) : Scan where
  level := s.level + r.level - 1
  opened := r.opened ++ s.opened.drop r.strays.length
  strays := r.strays.rdrop s.opened.length ++ s.strays

theorem followedBy_start (s : Scan) : s.followedBy start = s := by
  obtain ⟨level, opened, strays⟩ := s
  simp [followedBy, start]

/-- A loop end that is a stray in the second code closes a loop of the first, if the
strays before it have left one. -/
theorem step_followedBy_stray (s : Scan) (level : Int) (strays : List Nat) (index : Nat) :
    (s.followedBy ⟨level, [], strays⟩).step index Instruction.loopEnd.byte =
      s.followedBy ⟨level - 1, [], index :: strays⟩ := by
  have hlevel : s.level + level - 1 - 1 = s.level + (level - 1) - 1 := by omega
  rw [followedBy, followedBy, List.nil_append, List.nil_append]
  show step ⟨s.level + level - 1, s.opened.drop strays.length, _⟩ index _ =
    ⟨s.level + (level - 1) - 1, s.opened.drop (strays.length + 1), _⟩
  rcases Nat.lt_or_ge strays.length s.opened.length with hlt | hge
  · rw [List.drop_eq_getElem_cons hlt, step_loopEnd_cons, hlevel,
      rdrop_eq_nil_of_le (Nat.le_of_lt hlt), rdrop_eq_nil_of_le (l := index :: strays) hlt]
  · have hkept : (index :: strays).rdrop s.opened.length =
        index :: strays.rdrop s.opened.length := by
      rw [List.rdrop, List.rdrop, List.length_cons, Nat.succ_sub hge, List.take_succ_cons]
    rw [List.drop_eq_nil_of_le hge, List.drop_eq_nil_of_le (Nat.le_succ_of_le hge),
      step_loopEnd_nil, hlevel, hkept, List.cons_append]

theorem step_followedBy (s r : Scan) (index : Nat) (b : UInt8) :
    (s.followedBy r).step index b = s.followedBy (r.step index b) := by
  obtain ⟨level, opened, strays⟩ := r
  by_cases hb : IsBracket b
  · rcases hb with rfl | rfl
    · have hlevel : s.level + level - 1 + 1 = s.level + (level + 1) - 1 := by omega
      rw [step_loopStart, step_loopStart, followedBy, followedBy, ← hlevel]
      rfl
    · cases opened with
      | nil =>
        rw [step_loopEnd_nil]
        exact step_followedBy_stray s level strays index
      | cons o outer =>
        have hlevel : s.level + level - 1 - 1 = s.level + (level - 1) - 1 := by omega
        rw [step_loopEnd_cons, followedBy, followedBy, List.cons_append, step_loopEnd_cons, hlevel]
  · rw [step_of_not_isBracket hb, step_of_not_isBracket hb]

theorem run_followedBy (s r : Scan) (index : Nat) (code : Text) :
    (s.followedBy r).run index code = s.followedBy (r.run index code) := by
  induction code generalizing r index with
  | nil => rfl
  | cons b rest ih => rw [run, run, step_followedBy, ih]

theorem run_start_append (p q : Text) :
    start.run 0 (p ++ q) =
      (start.run 0 p).followedBy ((start.run 0 q).reindex (· + p.length)) := by
  have hshift : (start.run 0 q).reindex (· + p.length) = start.run p.length q :=
    reindex_run (fun i _ => by rw [Nat.zero_add, Nat.add_comm]) start
  rw [hshift, ← run_followedBy, followedBy_start, run_append, Nat.zero_add]

/-! ## What is left over -/

theorem rdrop_leftover {s : Scan} {c : Nat} (h : c ≤ s.opened.length) :
    s.leftover.rdrop c = s.strays.reverse ++ (s.opened.drop c).reverse := by
  rw [List.rdrop_eq_reverse_drop_reverse, leftover, List.reverse_append, List.reverse_reverse,
    List.reverse_reverse, List.drop_append_of_le_length h, List.reverse_append]

theorem drop_leftover {s : Scan} {c : Nat} (h : c ≤ s.strays.length) :
    s.leftover.drop c = (s.strays.rdrop c).reverse ++ s.opened.reverse := by
  rw [List.rdrop_eq_reverse_drop_reverse, List.reverse_reverse, leftover,
    List.drop_append_of_le_length (by rwa [List.length_reverse])]

/-- As many brackets go on each side as there are loops to close and loop ends to close
them. -/
theorem leftover_followedBy (s r : Scan) :
    (s.followedBy r).leftover =
      s.leftover.rdrop (min s.opened.length r.strays.length) ++
        r.leftover.drop (min s.opened.length r.strays.length) := by
  rw [rdrop_leftover (Nat.min_le_left _ _), drop_leftover (Nat.min_le_right _ _), leftover,
    followedBy, List.reverse_append, List.reverse_append]
  rcases Nat.le_total s.opened.length r.strays.length with hle | hle
  · rw [Nat.min_eq_left hle, List.drop_eq_nil_of_le hle, List.drop_length]
    simp only [List.append_assoc, List.reverse_nil, List.nil_append]
  · rw [Nat.min_eq_right hle, rdrop_eq_nil_of_le hle, rdrop_eq_nil_of_le (Nat.le_refl _)]
    simp only [List.append_assoc, List.reverse_nil, List.nil_append]

/-! ## Counting what is left over -/

theorem Skeleton.countP_leftover {text : Text} {s : Scan} (h : Skeleton text s) :
    s.leftover.countP (fun i => text[i]? = some Instruction.loopStart.byte) = s.opened.length ∧
      s.leftover.countP (fun i => text[i]? = some Instruction.loopEnd.byte) =
        s.strays.length := by
  obtain ⟨hends, hstarts⟩ := h.getElem?_of_mem
  have hne : Instruction.loopStart.byte ≠ Instruction.loopEnd.byte := by decide
  simp only [leftover, List.countP_append, List.countP_reverse]
  constructor
  · rw [List.countP_eq_zero.2 (fun i hi => by simp [hends i hi, hne.symm]),
      List.countP_eq_length.2 (fun i hi => by simp [hstarts i hi]), Nat.zero_add]
  · rw [List.countP_eq_length.2 (fun i hi => by simp [hends i hi]),
      List.countP_eq_zero.2 (fun i hi => by simp [hstarts i hi, hne]), Nat.add_zero]

end Scan

namespace Balance

/-- The analysis of two codes in a row.  The loops that the first leaves open and the
loop ends that the second has too many close each other as far as they go, and those
are the last unmatched brackets of the first code and the first of the second. -/
theorem ofCode_append (p q : Text) :
    let starts := (ofCode p).unmatched.countP fun i => p[i]? = some Instruction.loopStart.byte
    let ends := (ofCode q).unmatched.countP fun i => q[i]? = some Instruction.loopEnd.byte
    let c := min starts ends
    (ofCode (p ++ q)).level = (ofCode p).level + (ofCode q).level - 1 ∧
      (ofCode (p ++ q)).unmatched =
        (ofCode p).unmatched.rdrop c ++ ((ofCode q).unmatched.drop c).map (· + p.length) := by
  intro starts ends c
  have hp := Scan.skeleton_run p
  have hq := Scan.skeleton_run q
  have hstarts : starts = (Scan.start.run 0 p).opened.length := by
    rw [← hp.countP_leftover.1, ← unmatched_ofCode]
  have hends : ends = ((Scan.start.run 0 q).reindex (· + p.length)).strays.length := by
    show ends = ((Scan.start.run 0 q).strays.map (· + p.length)).length
    rw [List.length_map, ← hq.countP_leftover.2, ← unmatched_ofCode]
  have hrun := Scan.run_start_append p q
  constructor
  · exact congrArg Scan.level hrun
  · show (ofCode (p ++ q)).unmatched = (ofCode p).unmatched.rdrop (min starts ends) ++
      ((ofCode q).unmatched.drop (min starts ends)).map (· + p.length)
    rw [unmatched_ofCode, unmatched_ofCode, unmatched_ofCode, hrun, Scan.leftover_followedBy,
      Scan.leftover_reindex, List.map_drop, hstarts, hends]

end Balance
end TapeC
