import TapeC.Block

/-!
The jump machine.

A configuration is an index into the code and a state.  A loop start jumps past
its partner when the test fails, and a loop end jumps back to its partner.  The
machine halts at the end of the code.
-/

namespace TapeC
namespace Machine

/-- One step of the machine on a code. -/
inductive Step {σ : Type} (m : Meaning σ) (code : Text) : Nat × σ → Nat × σ → Prop where
  | simple {pc : Nat} {s : σ} {i : Instruction} : i.isSimple → code[pc]? = some i.byte →
      Step m code (pc, s) (pc + 1, m.act i s)
  | enter {pc : Nat} {s : σ} : code[pc]? = some Instruction.loopStart.byte → m.test s = true →
      Step m code (pc, s) (pc + 1, s)
  | skip {pc j : Nat} {s : σ} : Partners code pc j → m.test s = false →
      Step m code (pc, s) (j + 1, s)
  | back {i pc : Nat} {s : σ} : Partners code i pc → Step m code (pc, s) (i, s)

/-- Any number of steps. -/
inductive Steps {σ : Type} (m : Meaning σ) (code : Text) : Nat × σ → Nat × σ → Prop where
  | refl {c : Nat × σ} : Steps m code c c
  | head {a b c : Nat × σ} : Step m code a b → Steps m code b c → Steps m code a c

/-- Started at the first instruction, the machine halts at the end of the code. -/
def Halts {σ : Type} (m : Meaning σ) (code : Text) (s t : σ) : Prop :=
  Steps m code (0, s) (code.length, t)

theorem Steps.trans {σ : Type} {m : Meaning σ} {code : Text} {a b c : Nat × σ}
    (hab : Steps m code a b) (hbc : Steps m code b c) : Steps m code a c := by
  induction hab with
  | refl => exact hbc
  | head h _ ih => exact .head h (ih hbc)

end Machine
end TapeC
