import TapeC.Source

/-!
The language of nested loops.

`Nested` is the grammar of the codes in which every loop is closed, and
`Partners` says which two brackets of a text belong together.  Neither mentions
a counter or a stack, so both are things that the bracket analysis can be held
against.
-/

namespace TapeC

/-- The instructions that are not brackets. -/
def Instruction.isSimple : Instruction → Bool
  | .loopStart | .loopEnd => false
  | _ => true

/-- A code is empty, or a simple instruction before a nested code, or a loop
around a nested code before a nested code. -/
inductive Nested : Text → Prop where
  | nil : Nested []
  | simple {i : Instruction} {rest : Text} : i.isSimple → Nested rest → Nested (i.byte :: rest)
  | loop {inner rest : Text} : Nested inner → Nested rest →
      Nested (Instruction.loopStart.byte :: inner ++ Instruction.loopEnd.byte :: rest)

/-- The bytes strictly between two offsets. -/
def between (text : Text) (i j : Nat) : Text := (text.take j).drop (i + 1)

/-- The brackets at two offsets belong together when what stands between them is
nested, comments apart. -/
structure Partners (text : Text) (i j : Nat) : Prop where
  lt : i < j
  opens : text[i]? = some Instruction.loopStart.byte
  closes : text[j]? = some Instruction.loopEnd.byte
  nested : Nested (Source.filtered (between text i j))

namespace Nested

theorem append {a b : Text} (ha : Nested a) (hb : Nested b) : Nested (a ++ b) := by
  induction ha with
  | nil => exact hb
  | simple hi _ ih => exact .simple hi ih
  | loop hin _ _ ih =>
    have := Nested.loop hin ih
    simpa using this

end Nested
end TapeC
