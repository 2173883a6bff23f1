import Mathlib.Data.List.TFAE
import Mathlib.Tactic.TFAE
import TapeC.Proofs.Block
import TapeC.Proofs.Indentation

/-!
The bracket language by counting.

A counter that starts at one goes up at each loop start and down at each loop end.
That it comes back to one is not enough, as `][` shows: it must not go below one on the
way.  The level of a scan is this counter (`Scan.Skeleton.level_eq_after`), and each loop
end that the scan keeps as a stray is a new low of the counter, and there are no others
(`Scan.Skeleton.le_after_iff`).  So the stack of the analysis, the grammar of nested codes
and the counter accept the same codes.
-/

namespace TapeC

open Source

/-! ## The counter -/

namespace Counter

def tick (n : Int) (b : UInt8) : Int :=
  if b = Instruction.loopStart.byte then n + 1
  else if b = Instruction.loopEnd.byte then n - 1
  else n

/-- The counter after a code, from one on. -/
def after (code : Text) : Int := code.foldl tick 1

/-- How far a code moves the counter, from wherever it stands. -/
def rise (code : Text) : Int :=
  code.count Instruction.loopStart.byte - code.count Instruction.loopEnd.byte

theorem rise_append (a b : Text) : rise (a ++ b) = rise a + rise b := by
  simp only [rise, List.count_append]
  omega

theorem rise_of_not_isBracket {b : UInt8} (h : ¬ IsBracket b) : rise [b] = 0 := by
  obtain ⟨hstart, hend⟩ := not_or.1 h
  have hno : ∀ c, b ≠ c → [b].count c = 0 := by
    intro c hc
    exact List.count_eq_zero_of_not_mem (by simpa using Ne.symm hc)
  rw [rise, hno _ hstart, hno _ hend]
  rfl

theorem tick_eq (n : Int) (b : UInt8) : tick n b = n + rise [b] := by
  by_cases hb : IsBracket b
  · rcases hb with rfl | rfl
    · rfl
    · rfl
  · obtain ⟨hstart, hend⟩ := not_or.1 hb
    rw [tick, if_neg hstart, if_neg hend, rise_of_not_isBracket hb, Int.add_zero]

theorem foldl_tick (n : Int) (code : Text) : code.foldl tick n = n + rise code := by
  induction code generalizing n with
  | nil => exact (Int.add_zero n).symm
  | cons b rest ih =>
    have hsplit : rise (b :: rest) = rise [b] + rise rest := rise_append [b] rest
    rw [List.foldl_cons, ih, tick_eq, hsplit, Int.add_assoc]

theorem after_eq (code : Text) : after code = 1 + rise code := foldl_tick 1 code

theorem after_append (a b : Text) : after (a ++ b) = after a + rise b := by
  rw [after_eq, after_eq, rise_append]
  omega

/-- The depth of the lines of a C text moves as the counter does. -/
theorem depthAfter_eq_tick : CText.depthAfter = tick := by
  funext n b
  by_cases hb : IsBracket b
  · rcases hb with rfl | rfl
    · rfl
    · rfl
  · obtain ⟨hstart, hend⟩ := not_or.1 hb
    have hplain := Scan.level_step ⟨n, [], []⟩ 0 b
    rw [Scan.step_of_not_isBracket hb] at hplain
    rw [tick, if_neg hstart, if_neg hend]
    exact hplain.symm

end Counter

/-! ## The counter along a scan -/

namespace Scan

theorem level_run_eq_rise (s : Scan) (index : Nat) (code : Text) :
    (s.run index code).level = s.level + Counter.rise code := by
  rw [level_run, Counter.depthAfter_eq_tick, Counter.foldl_tick]

namespace Skeleton

/-- A text has one skeleton only. -/
theorem eq_run {text : Text} {s : Scan} (h : Skeleton text s) : s = start.run 0 text := by
  induction h with
  | nested hx => exact (run_of_nested hx start 0).symm
  | stray _ hx ih =>
    rw [run_append, ← ih, run, run_of_nested hx, Nat.zero_add]
    rfl
  | opened _ hx ih =>
    rw [run_append, ← ih, run, run_of_nested hx, Nat.zero_add]
    rfl

theorem level_eq_after {text : Text} {s : Scan} (h : Skeleton text s) :
    s.level = Counter.after text := by
  rw [h.eq_run, level_run_eq_rise, Counter.after_eq]
  rfl

theorem rise_eq {text : Text} {s : Scan} (h : Skeleton text s) :
    Counter.rise text = s.opened.length - s.strays.length := by
  have hlevel := h.level_eq
  rw [h.level_eq_after, Counter.after_eq] at hlevel
  omega

/-- The text ends its strays somewhere, and from there on it only opens. -/
theorem exists_cut {text : Text} {s : Scan} (h : Skeleton text s) :
    ∃ a b, text = a ++ b ∧ Counter.rise a = -s.strays.length ∧
      Counter.rise b = s.opened.length := by
  have hcut : ∃ a b, text = a ++ b ∧ Counter.rise a = -s.strays.length := by
    induction h with
    | nested hx => exact ⟨[], _, rfl, rfl⟩
    | stray hs hx =>
      refine ⟨_, [], (List.append_nil _).symm, ?_⟩
      rw [(hs.stray hx).rise_eq, List.length_nil]
      omega
    | opened hs hx ih =>
      obtain ⟨a, b, rfl, ha⟩ := ih
      exact ⟨a, _, List.append_assoc _ _ _, ha⟩
  obtain ⟨a, b, rfl, ha⟩ := hcut
  have hsum := h.rise_eq
  rw [Counter.rise_append] at hsum
  exact ⟨a, b, rfl, ha, by omega⟩

/-- The counter of a text goes down to one less its strays and no further. -/
theorem le_after_iff {text : Text} {s : Scan} (h : Skeleton text s) (n : Int) :
    (∀ a, a <+: text → n ≤ Counter.after a) ↔ n ≤ 1 - s.strays.length := by
  constructor
  · intro hn
    obtain ⟨a, b, rfl, ha, _⟩ := h.exists_cut
    have := hn a (List.prefix_append a b)
    rw [Counter.after_eq, ha] at this
    omega
  · intro hn a ha
    obtain ⟨b, rfl⟩ := ha
    have hkept := strays_suffix_run (start.run 0 a) (0 + a.length) b
    rw [← run_append, ← h.eq_run] at hkept
    have hfewer := hkept.length_le
    have hrise := (skeleton_run a).rise_eq
    rw [Counter.after_eq, hrise]
    omega

end Skeleton
end Scan

namespace Nested

theorem one_le_after {code a : Text} (h : Nested (filtered code)) (ha : a <+: code) :
    1 ≤ Counter.after a :=
  ((Scan.Skeleton.nested h).le_after_iff 1).2 (by decide) a ha

theorem after_eq_one {code : Text} (h : Nested (filtered code)) : Counter.after code = 1 :=
  (Scan.Skeleton.nested h).level_eq_after.symm

theorem iff_counter (code : Text) : Nested (filtered code) ↔
    (∀ a, a <+: code → 1 ≤ Counter.after a) ∧ Counter.after code = 1 := by
  constructor
  · exact fun h => ⟨fun a ha => h.one_le_after ha, h.after_eq_one⟩
  · intro h
    obtain ⟨habove, hend⟩ := h
    have hskeleton := Scan.skeleton_run code
    have hfew := (hskeleton.le_after_iff 1).1 habove
    have hstrays : (Scan.start.run 0 code).strays = [] :=
      List.eq_nil_of_length_eq_zero (by omega)
    -- without strays the counter is at one only if no loop is left open
    have hrise := hskeleton.rise_eq
    rw [Counter.after_eq] at hend
    rw [hstrays, List.length_nil] at hrise
    have hopened : (Scan.start.run 0 code).opened = [] :=
      List.eq_nil_of_length_eq_zero (by omega)
    rw [← Balance.unmatched_eq_nil_iff, Balance.unmatched_ofCode, Scan.leftover, hstrays, hopened]
    rfl

end Nested

/-! ## Listings -/

namespace Listing

/-- Three ways to say that the brackets of a text are in order: the analysis finds
nothing wrong, the grammar of nested codes derives the instructions, and the counter is
nowhere below one and is one at the end. -/
theorem wellFormed_tfae (p : Prelude) (text : Text) :
    [(ofText p text).wellFormed = true,
      Nested (ofText p text).filtered,
      (∀ a, a <+: (ofText p text).filtered → 1 ≤ Counter.after a) ∧
        Counter.after (ofText p text).filtered = 1].TFAE := by
  have hcounter := Nested.iff_counter (ofText p text).filtered
  have hfiltered : Source.filtered (ofText p text).filtered = (ofText p text).filtered :=
    filtered_filtered text
  rw [hfiltered] at hcounter
  tfae_have 1 ↔ 2 := wellFormed_iff_nested p text
  tfae_have 2 ↔ 3 := hcounter
  tfae_finish

example : Counter.after (Text.ascii "][") = 1 ∧
    (ofText .standard (Text.ascii "][")).wellFormed = false := by decide

end Listing
end TapeC
