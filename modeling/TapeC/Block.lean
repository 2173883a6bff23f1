import TapeC.Nesting

/-!
Structured code: simple statements and `while` blocks.

A block is what the C text of a program means to a reader of C.  `statements`
writes it as a list of lines without indentation, and `Runs` is its meaning over
any kind of state.  The meaning of the simple instructions and of the loop test
is a parameter, so nothing depends on how large a cell is or what input is.
-/

namespace TapeC

/-- What the simple instructions do to a state, and when a loop goes on. -/
structure Meaning (σ : Type) where
  act : Instruction → σ → σ
  test : σ → Bool

inductive Block where
  | done
  | simple (i : Instruction) (rest : Block)
  | loop (inner rest : Block)
  deriving DecidableEq, Repr

namespace Block

/-- The statements of a block, one a line. -/
def statements : Block → List Text
  | done => []
  | simple i rest => i.statement :: rest.statements
  | loop inner rest =>
    Text.ascii "while(*p) \x7b" :: inner.statements ++ Text.ascii "\x7d" :: rest.statements

/-- Whether only simple instructions stand outside the loops. -/
def Proper : Block → Prop
  | done => True
  | simple i rest => i.isSimple ∧ rest.Proper
  | loop inner rest => inner.Proper ∧ rest.Proper

/-- Running a block from a state ends in a state. -/
inductive Runs {σ : Type} (m : Meaning σ) : Block → σ → σ → Prop where
  | done {s : σ} : Runs m .done s s
  | simple {i : Instruction} {rest : Block} {s t : σ} :
      Runs m rest (m.act i s) t → Runs m (.simple i rest) s t
  | leave {inner rest : Block} {s t : σ} : m.test s = false →
      Runs m rest s t → Runs m (.loop inner rest) s t
  | again {inner rest : Block} {s u t : σ} : m.test s = true →
      Runs m inner s u → Runs m (.loop inner rest) u t → Runs m (.loop inner rest) s t

end Block

namespace CText

/-- The lines of a C text without indentation; empty lines are dropped. -/
def unindented (t : Text) : List Text :=
  ((t.splitOn Byte.newline).map (List.dropWhile (· == Byte.space))).filter (!·.isEmpty)

end CText
end TapeC
