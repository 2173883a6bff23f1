import TapeC.Text

/-!
Lines and columns.

Both count from one, columns count bytes, and a newline ends its own line.
`Position.ofOffset` is the fold of one step per byte before the offset, so the
position after `a ++ b` continues from the position after `a`.
-/

namespace TapeC

structure Position where
  line : Nat
  column : Nat
  deriving DecidableEq, Repr

namespace Position

def start : Position := ⟨1, 1⟩

/-- The position after the byte `b`. -/
def advance (p : Position) (b : UInt8) : Position :=
  if b = Byte.newline then ⟨p.line + 1, 1⟩ else ⟨p.line, p.column + 1⟩

def after (p : Position) (t : Text) : Position := t.foldl advance p

/-- The position of a byte offset.  An offset before the text counts as its start
and one past the text as its end. -/
def ofOffset (text : Text) (offset : Int) : Position :=
  start.after (text.take offset.toNat)

@[simp] theorem after_nil (p : Position) : p.after [] = p := rfl

@[simp] theorem after_append (p : Position) (a b : Text) :
    p.after (a ++ b) = (p.after a).after b := by
  simp [after]

end Position
end TapeC
