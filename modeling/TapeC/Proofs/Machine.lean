import TapeC.Machine
import TapeC.Proofs.Block

/-!
The jump machine runs blocks.

A block inside a code is run by the machine from its first instruction to the one
after its last (`Machine.steps_of_runs`), and a run that gets to the end of the code
from the start of a block runs the block first (`Machine.runs_of_counted`).  The
second needs an induction on the number of steps: a loop comes back to its own
start, so the block does not get smaller, but the rest of the run gets shorter.
-/

namespace TapeC

/-! ## Blocks inside a code -/

namespace Block

/-- The code of the block stands at an index of a larger code. -/
def At (b : Block) (code : Text) (pc : Nat) : Prop :=
  ∃ before after, code = before ++ (b.code ++ after) ∧ before.length = pc

theorem at_code (b : Block) : b.At b.code 0 :=
  ⟨[], [], by rw [List.append_nil, List.nil_append], rfl⟩

theorem at_simple {i : Instruction} {rest : Block} {code : Text} {pc : Nat}
    (h : (simple i rest).At code pc) : code[pc]? = some i.byte ∧ rest.At code (pc + 1) := by
  obtain ⟨before, after, rfl, rfl⟩ := h
  constructor
  · exact getElem?_append_cons before _ _
  · refine ⟨before ++ [i.byte], after, ?_, ?_⟩
    · rw [List.append_assoc, List.singleton_append]
      rfl
    · rw [List.length_append, List.length_singleton]

theorem at_loop {inner rest : Block} {code : Text} {pc : Nat} (hin : inner.Proper)
    (h : (loop inner rest).At code pc) :
    Partners code pc (pc + 1 + inner.code.length) ∧ inner.At code (pc + 1) ∧
      rest.At code (pc + 1 + inner.code.length + 1) := by
  obtain ⟨before, after, rfl, rfl⟩ := h
  have hcode : (loop inner rest).code ++ after = Instruction.loopStart.byte ::
      (inner.code ++ Instruction.loopEnd.byte :: (rest.code ++ after)) := by
    rw [code, List.cons_append, List.append_assoc, List.cons_append]
  rw [hcode]
  refine ⟨partners_code hin before _, ?_, ?_⟩
  · refine ⟨before ++ [Instruction.loopStart.byte],
      Instruction.loopEnd.byte :: (rest.code ++ after), ?_, ?_⟩
    · rw [List.append_assoc, List.singleton_append]
    · rw [List.length_append, List.length_singleton]
  · refine ⟨before ++ Instruction.loopStart.byte :: (inner.code ++ [Instruction.loopEnd.byte]),
      after, ?_, ?_⟩
    · rw [List.append_assoc, List.cons_append, List.append_assoc, List.singleton_append]
    · rw [List.length_append, List.length_cons, List.length_append, List.length_singleton]
      omega

theorem end_simple (i : Instruction) (rest : Block) (pc : Nat) :
    pc + (simple i rest).code.length = pc + 1 + rest.code.length := by
  rw [code, List.length_cons]
  omega

theorem end_loop (inner rest : Block) (pc : Nat) :
    pc + (loop inner rest).code.length =
      pc + 1 + inner.code.length + 1 + rest.code.length := by
  rw [code, List.length_cons, List.length_append, List.length_cons]
  omega

end Block

namespace Machine

variable {σ : Type} {m : Meaning σ} {code : Text}

/-! ## What one step can be -/

theorem instruction_unique {pc : Nat} {i j : Instruction} (hi : code[pc]? = some i.byte)
    (hj : code[pc]? = some j.byte) : i = j := by
  rw [hi, Option.some.injEq] at hj
  exact Instruction.byte_injective hj

theorem step_of_simple {pc : Nat} {s : σ} {c : Nat × σ} {i : Instruction} (hi : i.isSimple)
    (hget : code[pc]? = some i.byte) (h : Step m code (pc, s) c) : c = (pc + 1, m.act i s) := by
  cases h with
  | simple _ hget' => rw [instruction_unique hget hget']
  | enter hget' _ =>
    rw [instruction_unique hget hget'] at hi
    exact absurd hi (by decide)
  | skip hpair _ =>
    rw [instruction_unique hget hpair.opens] at hi
    exact absurd hi (by decide)
  | back hpair =>
    rw [instruction_unique hget hpair.closes] at hi
    exact absurd hi (by decide)

theorem step_of_loopStart {i j : Nat} {s : σ} {c : Nat × σ} (hpair : Partners code i j)
    (h : Step m code (i, s) c) :
    m.test s = true ∧ c = (i + 1, s) ∨ m.test s = false ∧ c = (j + 1, s) := by
  cases h with
  | simple hi hget =>
    rw [instruction_unique hget hpair.opens] at hi
    exact absurd hi (by decide)
  | enter _ htest => exact Or.inl ⟨htest, rfl⟩
  | skip hpair' htest =>
    rw [hpair'.right_unique hpair]
    exact Or.inr ⟨htest, rfl⟩
  | back hpair' => exact absurd (instruction_unique hpair.opens hpair'.closes) (by decide)

theorem step_of_loopEnd {i j : Nat} {s : σ} {c : Nat × σ} (hpair : Partners code i j)
    (h : Step m code (j, s) c) : c = (i, s) := by
  cases h with
  | simple hi hget =>
    rw [instruction_unique hget hpair.closes] at hi
    exact absurd hi (by decide)
  | enter hget _ => exact absurd (instruction_unique hget hpair.closes) (by decide)
  | skip hpair' _ => exact absurd (instruction_unique hpair'.opens hpair.closes) (by decide)
  | back hpair' => rw [hpair'.left_unique hpair]

theorem lt_length_of_step {pc : Nat} {s : σ} {c : Nat × σ} (h : Step m code (pc, s) c) :
    pc < code.length := by
  cases h with
  | simple _ hget => exact (List.getElem?_eq_some_iff.1 hget).1
  | enter hget _ => exact (List.getElem?_eq_some_iff.1 hget).1
  | skip hpair _ => exact (List.getElem?_eq_some_iff.1 hpair.opens).1
  | back hpair => exact (List.getElem?_eq_some_iff.1 hpair.closes).1

/-! ## From runs of blocks to runs of the machine -/

theorem steps_of_runs {b : Block} {s t : σ} {pc : Nat} (h : b.Runs m s t) (hb : b.Proper)
    (hat : b.At code pc) : Steps m code (pc, s) (pc + b.code.length, t) := by
  induction h generalizing pc with
  | done => exact .refl
  | @simple i rest s t _ ih =>
    obtain ⟨hget, hrest⟩ := Block.at_simple hat
    rw [Block.end_simple]
    exact .head (.simple hb.1 hget) (ih hb.2 hrest)
  | @leave inner rest s t htest _ ih =>
    obtain ⟨hpair, _, hrest⟩ := Block.at_loop hb.1 hat
    rw [Block.end_loop]
    exact .head (.skip hpair htest) (ih hb.2 hrest)
  | @again inner rest s u t htest _ _ ihin ihloop =>
    obtain ⟨hpair, hin, _⟩ := Block.at_loop hb.1 hat
    have hinside : Steps m code (pc + 1, s) (pc + 1 + inner.code.length, u) := ihin hb.1 hin
    exact .head (.enter hpair.opens htest) (hinside.trans (.head (.back hpair) (ihloop hb hat)))

/-! ## From runs of the machine to runs of blocks -/

/-- A run of a given number of steps. -/
inductive Counted (m : Meaning σ) (code : Text) : Nat → Nat × σ → Nat × σ → Prop where
  | zero {c : Nat × σ} : Counted m code 0 c c
  | succ {n : Nat} {a b c : Nat × σ} : Step m code a b → Counted m code n b c →
      Counted m code (n + 1) a c

theorem Steps.exists_counted {a b : Nat × σ} (h : Steps m code a b) :
    ∃ n, Counted m code n a b := by
  induction h with
  | refl => exact ⟨0, .zero⟩
  | head hstep _ ih =>
    obtain ⟨n, hn⟩ := ih
    exact ⟨n + 1, .succ hstep hn⟩

/-- Before the end of the code a run to the end has a first step. -/
theorem Counted.exists_step {n pc : Nat} {s t : σ} {b : UInt8} (hget : code[pc]? = some b)
    (h : Counted m code n (pc, s) (code.length, t)) :
    ∃ k c, n = k + 1 ∧ Step m code (pc, s) c ∧ Counted m code k c (code.length, t) := by
  cases h with
  | zero =>
    rw [List.getElem?_eq_none (Nat.le_refl _)] at hget
    exact absurd hget (by simp)
  | @succ k _ c _ hstep hrest => exact ⟨k, c, rfl, hstep, hrest⟩

/-- A run from the start of a block to the end of the code runs the block, and what
is left of it is not longer. -/
theorem runs_of_counted {t : σ} (n : Nat) : ∀ (b : Block) (pc : Nat) (s : σ), b.Proper →
    b.At code pc → Counted m code n (pc, s) (code.length, t) →
    ∃ u k, k ≤ n ∧ b.Runs m s u ∧
      Counted m code k (pc + b.code.length, u) (code.length, t) := by
  induction n using Nat.strongRecOn with
  | ind n ih =>
    intro b pc s hb hat hrun
    cases b with
    | done => exact ⟨s, n, Nat.le_refl n, .done, hrun⟩
    | simple i rest =>
      obtain ⟨hget, hrest⟩ := Block.at_simple hat
      obtain ⟨k, c, rfl, hstep, hrun⟩ := hrun.exists_step hget
      obtain rfl := step_of_simple hb.1 hget hstep
      obtain ⟨u, j, hj, hruns, hleft⟩ := ih k (by omega) rest (pc + 1) _ hb.2 hrest hrun
      rw [Block.end_simple]
      exact ⟨u, j, by omega, .simple hruns, hleft⟩
    | loop inner rest =>
      obtain ⟨hpair, hin, hrest⟩ := Block.at_loop hb.1 hat
      obtain ⟨k, c, rfl, hstep, hrun⟩ := hrun.exists_step hpair.opens
      rcases step_of_loopStart hpair hstep with ⟨htest, rfl⟩ | ⟨htest, rfl⟩
      · -- once through the inside, back to the start, and the same loop again
        obtain ⟨u, j, hj, hinside, hrun⟩ := ih k (by omega) inner (pc + 1) s hb.1 hin hrun
        obtain ⟨l, d, rfl, hback, hrun⟩ := hrun.exists_step hpair.closes
        obtain rfl := step_of_loopEnd hpair hback
        obtain ⟨v, r, hr, hagain, hleft⟩ := ih l (by omega) (.loop inner rest) pc u hb hat hrun
        exact ⟨v, r, by omega, .again htest hinside hagain, hleft⟩
      · obtain ⟨u, j, hj, hruns, hleft⟩ := ih k (by omega) rest _ s hb.2 hrest hrun
        rw [Block.end_loop]
        exact ⟨u, j, by omega, .leave htest hruns, hleft⟩

theorem halts_code_iff {b : Block} (hb : b.Proper) {s t : σ} :
    Halts m b.code s t ↔ b.Runs m s t := by
  constructor
  · intro h
    obtain ⟨n, hrun⟩ := h.exists_counted
    obtain ⟨u, k, _, hruns, hleft⟩ := runs_of_counted n b 0 s hb b.at_code hrun
    rw [Nat.zero_add] at hleft
    cases hleft with
    | zero => exact hruns
    | succ hstep _ => exact absurd (lt_length_of_step hstep) (Nat.lt_irrefl _)
  · intro h
    have := steps_of_runs h hb b.at_code
    rwa [Nat.zero_add] at this

end Machine

/-! ## Listings -/

namespace Listing

/-- The C text means what the program means.  If the brackets are in order, the body
of the entry function reads as one block, and whatever the simple instructions do
and the loop test says, the block runs from one state to another just when the jump
machine halts so on the instructions. -/
theorem runs_entry_iff_halts (p : Prelude) (text : Text) (h : (ofText p text).wellFormed) :
    ∃ t b, (ofText p text).code = p.text ++ [Byte.newline] ++
        (Text.ascii "int " ++ p.effective.entry ++ Text.ascii "(void) \x7b\n") ++ t ∧
      Block.Reads b t ∧ (∀ b', Block.Reads b' t → b' = b) ∧
      ∀ (σ : Type) (m : Meaning σ) (s s' : σ),
        b.Runs m s s' ↔ Machine.Halts m (ofText p text).filtered s s' := by
  obtain ⟨b, hb, hcode⟩ := Block.exists_code_eq ((wellFormed_iff_nested p text).1 h)
  have hreads : ∀ b', Block.Reads b' (CText.body (Source.filtered text)) ↔
      b'.Proper ∧ b'.code = Source.filtered text :=
    fun _ => Block.reads_body_iff (isInstruction_filtered text)
  refine ⟨CText.body (Source.filtered text), b, rfl, (hreads b).2 ⟨hb, hcode⟩, ?_, ?_⟩
  · intro b' hb'
    obtain ⟨hproper, hcode'⟩ := (hreads b').1 hb'
    exact Block.code_injective hproper hb (hcode'.trans hcode.symm)
  · intro σ m s s'
    show b.Runs m s s' ↔ Machine.Halts m (Source.filtered text) s s'
    rw [← hcode]
    exact (Machine.halts_code_iff hb).symm

theorem runs_entry_iff_halts_nested :
    (ofText .standard (Text.ascii "[-[>]a]+")).wellFormed ∧
    ∃ t b, (ofText .standard (Text.ascii "[-[>]a]+")).code =
        Prelude.standard.text ++ [Byte.newline] ++
          (Text.ascii "int " ++ Text.ascii "turbobrain_main" ++ Text.ascii "(void) \x7b\n") ++ t ∧
      Block.Reads b t ∧ (∀ b', Block.Reads b' t → b' = b) ∧
      ∀ (σ : Type) (m : Meaning σ) (s s' : σ),
        b.Runs m s s' ↔
          Machine.Halts m (ofText .standard (Text.ascii "[-[>]a]+")).filtered s s' :=
  ⟨by decide, runs_entry_iff_halts .standard (Text.ascii "[-[>]a]+") (by decide)⟩

end Listing
end TapeC
