import Mathlib.Data.List.Induction
import TapeC.Balance
import TapeC.Nesting

/-!
The bracket scan against the grammar of nested loops.

A nested text leaves no trace in a scan (`Scan.run_of_nested`), whatever the scan
has seen before.  What does leave a trace is the skeleton of a text: the brackets
that are left when all nested pieces are taken out.  In a skeleton the stray loop
ends stand before the loops that stay open, and `Scan.skeleton_run` says that the
scan of any text remembers exactly its skeleton.  The level, the order of the
unmatched brackets and `Balance.inOrder_iff_nested` are read off it.
-/

namespace TapeC

/-- The two bytes that the bracket analysis looks at. -/
def IsBracket (b : UInt8) : Prop :=
  b = Instruction.loopStart.byte ∨ b = Instruction.loopEnd.byte

instance : DecidablePred IsBracket := fun _ => inferInstanceAs (Decidable (_ ∨ _))

theorem Instruction.isSimple_of_not_isBracket {i : Instruction} (h : ¬ IsBracket i.byte) :
    i.isSimple := by
  cases i with
  | loopStart => exact absurd (Or.inl rfl) h
  | loopEnd => exact absurd (Or.inr rfl) h
  | _ => rfl

theorem Instruction.not_isBracket_of_isSimple {i : Instruction} (h : i.isSimple) :
    ¬ IsBracket i.byte := by
  intro hb
  rcases hb with e | e
  · rw [Instruction.byte_injective e] at h
    exact absurd h (by decide)
  · rw [Instruction.byte_injective e] at h
    exact absurd h (by decide)

/-! ## Nested texts with comments -/

namespace Source

theorem filtered_cons_byte (i : Instruction) (x : Text) :
    filtered (i.byte :: x) = i.byte :: filtered x := by
  have h : isInstruction i.byte = true := by rw [isInstruction, Instruction.ofByte?_byte]; rfl
  exact List.filter_cons_of_pos h

/-- A byte among the instructions of a text splits the text itself. -/
theorem exists_of_filtered_eq_append_cons {x a c : Text} {b : UInt8}
    (h : filtered x = a ++ b :: c) :
    ∃ y z, x = y ++ b :: z ∧ filtered y = a ∧ filtered z = c := by
  obtain ⟨l, r, rfl, hl, hr⟩ := List.filter_eq_append_iff.1 h
  obtain ⟨m, z, rfl, hm, -, hz⟩ := List.filter_eq_cons_iff.1 hr
  have hnil : filtered m = [] := List.filter_eq_nil_iff.2 hm
  refine ⟨l ++ m, z, by rw [List.append_assoc], ?_, hz⟩
  rw [filtered_append, hnil, List.append_nil]
  exact hl

end Source

namespace Nested

open Source

theorem cons_of_not_isBracket {b : UInt8} {x : Text} (hb : ¬ IsBracket b)
    (hx : Nested (filtered x)) : Nested (filtered (b :: x)) := by
  cases hi : Instruction.ofByte? b with
  | none =>
    have hc : ¬ isInstruction b = true := by simp [isInstruction, hi]
    rw [filtered, List.filter_cons_of_neg hc]
    exact hx
  | some i =>
    obtain rfl := Instruction.ofByte?_eq_some_iff.1 hi
    rw [filtered_cons_byte]
    exact .simple (Instruction.isSimple_of_not_isBracket hb) hx

theorem wrap {x y : Text} (hx : Nested (filtered x)) (hy : Nested (filtered y)) :
    Nested (filtered (Instruction.loopStart.byte :: x ++ Instruction.loopEnd.byte :: y)) := by
  rw [List.cons_append, filtered_cons_byte, filtered_append, filtered_cons_byte]
  exact .loop hx hy

/-- Induction over a nested text as it stands, comments included.  A comment and a
simple instruction are the same case, since no bracket is involved in either. -/
theorem text_induction {P : Text → Prop} (nil : P [])
    (plain : ∀ b x, ¬ IsBracket b → P x → P (b :: x))
    (loop : ∀ x y, Nested (filtered x) → Nested (filtered y) → P x → P y →
      P (Instruction.loopStart.byte :: x ++ Instruction.loopEnd.byte :: y))
    {text : Text} (h : Nested (filtered text)) : P text := by
  have comments : ∀ c x : Text, filtered c = [] → P x → P (c ++ x) := by
    intro c x
    induction c with
    | nil => exact fun _ hx => hx
    | cons b c ih =>
      intro hc hx
      have hall := List.filter_eq_nil_iff.1 hc
      have hb : ¬ IsBracket b := by
        intro hbracket
        rcases hbracket with rfl | rfl
        · exact hall _ List.mem_cons_self rfl
        · exact hall _ List.mem_cons_self rfl
      have hrest : filtered c = [] :=
        List.filter_eq_nil_iff.2 fun a ha => hall a (List.mem_cons_of_mem b ha)
      exact plain b _ hb (ih hrest hx)
  generalize hcode : filtered text = code at h
  induction h generalizing text with
  | nil =>
    have := comments text [] hcode nil
    rwa [List.append_nil] at this
  | @simple i rest hi _ ih =>
    obtain ⟨c, x, rfl, hc, hx⟩ := exists_of_filtered_eq_append_cons (a := []) hcode
    exact comments c _ hc (plain _ x (Instruction.not_isBracket_of_isSimple hi) (ih hx))
  | @loop inner rest hin hout ihin ihout =>
    obtain ⟨c, x, rfl, hc, hx⟩ := exists_of_filtered_eq_append_cons (a := []) hcode
    obtain ⟨y, z, rfl, hy, hz⟩ := exists_of_filtered_eq_append_cons hx
    exact comments c _ hc
      (loop y z (by rw [hy]; exact hin) (by rw [hz]; exact hout) (ihin hy) (ihout hz))

theorem filtered_eq {code : Text} (h : Nested code) : filtered code = code := by
  induction h with
  | nil => rfl
  | simple _ _ ih => rw [filtered_cons_byte, ih]
  | loop _ _ ihin ihout =>
    rw [List.cons_append, filtered_cons_byte, filtered_append, filtered_cons_byte, ihin, ihout]

end Nested

/-! ## One step of the scan -/

namespace Scan

open Source

theorem step_loopStart (s : Scan) (index : Nat) :
    s.step index Instruction.loopStart.byte = ⟨s.level + 1, index :: s.opened, s.strays⟩ := rfl

theorem step_loopEnd_nil (level : Int) (strays : List Nat) (index : Nat) :
    step ⟨level, [], strays⟩ index Instruction.loopEnd.byte =
      ⟨level - 1, [], index :: strays⟩ := rfl

theorem step_loopEnd_cons (level : Int) (o : Nat) (outer strays : List Nat) (index : Nat) :
    step ⟨level, o :: outer, strays⟩ index Instruction.loopEnd.byte =
      ⟨level - 1, outer, strays⟩ := rfl

theorem step_of_not_isBracket {b : UInt8} (h : ¬ IsBracket b) (s : Scan) (index : Nat) :
    s.step index b = s := by
  cases hi : Instruction.ofByte? b with
  | none => simp only [step, hi]
  | some i =>
    obtain rfl := Instruction.ofByte?_eq_some_iff.1 hi
    have hs := Instruction.isSimple_of_not_isBracket h
    cases i with
    | loopStart => exact absurd hs (by decide)
    | loopEnd => exact absurd hs (by decide)
    | _ => rfl

theorem step_loopEnd_step_loopStart (s : Scan) (i j : Nat) :
    (s.step i Instruction.loopStart.byte).step j Instruction.loopEnd.byte = s := by
  rw [step_loopStart, step_loopEnd_cons, Int.add_sub_cancel]

theorem run_of_nested {text : Text} (h : Nested (filtered text)) :
    ∀ (s : Scan) (index : Nat), s.run index text = s := by
  refine Nested.text_induction (P := fun t => ∀ (s : Scan) (index : Nat), s.run index t = s)
    (fun _ _ => rfl) ?_ ?_ h
  · intro b x hb ih s index
    rw [run, step_of_not_isBracket hb, ih]
  · intro x y _ _ ihx ihy s index
    rw [List.cons_append, run, run_append, ihx, run, step_loopEnd_step_loopStart, ihy]

/-! ## Skeletons -/

/-- The brackets that a scan remembers, in the order of the text. -/
def leftover (s : Scan) : List Nat := s.strays.reverse ++ s.opened.reverse

theorem leftover_stray (level level' : Int) (strays : List Nat) (index : Nat) :
    leftover ⟨level, [], index :: strays⟩ = leftover ⟨level', [], strays⟩ ++ [index] := by
  simp [leftover]

theorem leftover_opened (level : Int) (s : Scan) (index : Nat) :
    leftover ⟨level, index :: s.opened, s.strays⟩ = s.leftover ++ [index] := by
  simp [leftover]

/-- The text is cut into nested pieces by the brackets that the scan remembers:
first the stray loop ends, then the loops that are still open. -/
inductive Skeleton : Text → Scan → Prop where
  | nested {x : Text} : Nested (filtered x) → Skeleton x start
  | stray {a x : Text} {level : Int} {strays : List Nat} :
      Skeleton a ⟨level, [], strays⟩ → Nested (filtered x) →
      Skeleton (a ++ Instruction.loopEnd.byte :: x) ⟨level - 1, [], a.length :: strays⟩
  | opened {a x : Text} {s : Scan} : Skeleton a s → Nested (filtered x) →
      Skeleton (a ++ Instruction.loopStart.byte :: x) ⟨s.level + 1, a.length :: s.opened, s.strays⟩

namespace Skeleton

theorem append_nested {a x : Text} {s : Scan} (h : Skeleton a s) (hx : Nested (filtered x)) :
    Skeleton (a ++ x) s := by
  have key : ∀ {y : Text}, Nested (filtered y) → Nested (filtered (y ++ x)) := by
    intro y hy
    rw [filtered_append]
    exact hy.append hx
  cases h with
  | nested hy => exact .nested (key hy)
  | stray hs hy =>
    rw [List.append_assoc, List.cons_append]
    exact .stray hs (key hy)
  | opened hs hy =>
    rw [List.append_assoc, List.cons_append]
    exact .opened hs (key hy)

/-- One more byte, one more step.  A loop end that closes the innermost open loop
makes a nested piece of it, which the piece before takes up. -/
theorem step {a : Text} {s : Scan} (h : Skeleton a s) (b : UInt8) :
    Skeleton (a ++ [b]) (s.step a.length b) := by
  by_cases hb : IsBracket b
  · rcases hb with rfl | rfl
    · rw [step_loopStart]
      exact .opened h .nil
    · cases h with
      | nested hx =>
        rw [start, step_loopEnd_nil]
        exact .stray (.nested hx) .nil
      | stray hs hx =>
        rw [step_loopEnd_nil]
        exact .stray (.stray hs hx) .nil
      | @opened a x s hs hx =>
        rw [step_loopEnd_cons, Int.add_sub_cancel, List.append_assoc, List.cons_append]
        exact hs.append_nested (Nested.wrap hx .nil)
  · rw [step_of_not_isBracket hb]
    exact h.append_nested (Nested.cons_of_not_isBracket hb .nil)

theorem level_eq {a : Text} {s : Scan} (h : Skeleton a s) :
    s.level = 1 + s.opened.length - s.strays.length := by
  induction h with
  | nested _ => rfl
  | stray _ _ ih =>
    simp only [List.length_nil, List.length_cons] at ih ⊢
    omega
  | opened _ _ ih =>
    simp only [List.length_cons]
    omega

/-- What is proved of the brackets of a skeleton is proved by adding one bracket at
a time, whichever kind it is. -/
theorem leftover_induction {P : Text → List Nat → Prop}
    (nested : ∀ x, Nested (filtered x) → P x [])
    (bracket : ∀ a b x s, Skeleton a s → IsBracket b → Nested (filtered x) → P a s.leftover →
      P (a ++ b :: x) (s.leftover ++ [a.length]))
    {text : Text} {s : Scan} (h : Skeleton text s) : P text s.leftover := by
  induction h with
  | nested hx => exact nested _ hx
  | @stray a x level strays hs hx ih =>
    rw [leftover_stray (level - 1) level]
    exact bracket a _ x _ hs (Or.inr rfl) hx ih
  | @opened a x s hs hx ih =>
    rw [leftover_opened]
    exact bracket a _ x _ hs (Or.inl rfl) hx ih

theorem lt_length {text : Text} {s : Scan} (h : Skeleton text s) :
    ∀ o ∈ s.leftover, o < text.length := by
  refine leftover_induction (P := fun t l => ∀ o ∈ l, o < t.length) ?_ ?_ h
  · intro x _ o ho
    exact absurd ho List.not_mem_nil
  · intro a b x s _ _ _ ih o ho
    rw [List.length_append, List.length_cons]
    rcases List.mem_append.1 ho with ho | ho
    · have := ih o ho
      omega
    · have := List.mem_singleton.1 ho
      omega

theorem ascending {text : Text} {s : Scan} (h : Skeleton text s) :
    s.leftover.Pairwise (· < ·) := by
  refine leftover_induction (P := fun _ l => l.Pairwise (· < ·)) ?_ ?_ h
  · exact fun _ _ => .nil
  · intro a b x s hs _ _ ih
    refine List.pairwise_append.2 ⟨ih, List.pairwise_singleton _ _, ?_⟩
    intro o ho c hc
    rw [List.mem_singleton.1 hc]
    exact hs.lt_length o ho

end Skeleton

/-- The scan of a text remembers its skeleton. -/
theorem skeleton_run (text : Text) : Skeleton text (start.run 0 text) := by
  induction text using List.reverseRecOn with
  | nil => exact .nested .nil
  | append_singleton a b ih =>
    rw [run_append, Nat.zero_add]
    exact ih.step b

end Scan

/-! ## The analysis of a text -/

theorem merge_eq_append {α : Type} [LT α] [DecidableLT α] {xs ys : List α}
    (h : ∀ x ∈ xs, ∀ y ∈ ys, x < y) : merge xs ys = xs ++ ys := by
  induction xs with
  | nil => rfl
  | cons x xs ih =>
    have hrest := ih fun z hz => h z (List.mem_cons_of_mem x hz)
    cases ys with
    | nil => rw [merge_nil_right, List.append_nil]
    | cons y ys =>
      have hxy : x < y := h x List.mem_cons_self y List.mem_cons_self
      rw [merge_cons_cons, if_pos hxy, hrest, List.cons_append]

namespace Balance

open Source

/-- The merge in the analysis never interleaves: every stray loop end comes before
every loop left open. -/
theorem unmatched_ofCode (code : Text) :
    (ofCode code).unmatched = (Scan.start.run 0 code).leftover :=
  merge_eq_append (List.pairwise_append.1 (Scan.skeleton_run code).ascending).2.2

theorem unmatched_eq_nil_iff (code : Text) :
    (ofCode code).unmatched = [] ↔ Nested (filtered code) := by
  rw [unmatched_ofCode]
  constructor
  · intro h
    have hsk := Scan.skeleton_run code
    generalize Scan.start.run 0 code = s at h hsk
    cases hsk with
    | nested hx => exact hx
    | stray _ _ => simp [Scan.leftover] at h
    | opened _ _ => simp [Scan.leftover] at h
  · intro h
    rw [Scan.run_of_nested h]
    rfl

/-- The level says nothing that the list of unmatched brackets does not. -/
theorem inOrder_iff_nested (code : Text) : (ofCode code).inOrder ↔ Nested (filtered code) := by
  rw [← unmatched_eq_nil_iff, inOrder, Bool.and_eq_true, List.isEmpty_iff]
  refine ⟨fun h => h.2, fun h => ⟨?_, h⟩⟩
  have hlevel := (Scan.skeleton_run code).level_eq
  rw [unmatched_ofCode, Scan.leftover, List.append_eq_nil_iff, List.reverse_eq_nil_iff,
    List.reverse_eq_nil_iff] at h
  rw [h.1, h.2] at hlevel
  exact beq_iff_eq.2 hlevel

end Balance
end TapeC
