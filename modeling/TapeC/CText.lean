import TapeC.Instruction
import TapeC.Text.Decimal

/-!
The C text of a program.

A C text is a prelude that declares the tape, then the entry function with one
line for each byte of the code.  The indentation follows the nesting of the
loops and never goes below zero, so an unbalanced code still has a text; whether
that text is worth compiling is for the bracket analysis to say.
-/

namespace TapeC

/-- The names and the size that a program may choose.  A size that is not
positive and an empty name stand for the default. -/
structure Prelude where
  cells : Int
  cellType : Text
  entry : Text
  deriving DecidableEq, Repr

namespace Prelude

/-- Thirty thousand cells of type `char`. -/
def standard : Prelude := ⟨30000, Text.ascii "char", Text.ascii "turbobrain_main"⟩

/-- The prelude with its defaults filled in. -/
def effective (p : Prelude) : Prelude where
  cells := if p.cells ≤ 0 then standard.cells else p.cells
  cellType := if p.cellType.isEmpty then standard.cellType else p.cellType
  entry := if p.entry.isEmpty then standard.entry else p.entry

/-- The defaults, spelled out. -/
theorem effective_eq (p : Prelude) :
    p.effective =
      ⟨if p.cells ≤ 0 then 30000 else p.cells,
        if p.cellType = [] then Text.ascii "char" else p.cellType,
        if p.entry = [] then Text.ascii "turbobrain_main" else p.entry⟩ := by
  simp only [effective, standard, List.isEmpty_iff]

/-- The declarations before the entry function, for a prelude without defaults
left to fill in. -/
def declarations (p : Prelude) : Text :=
  Text.ascii "#include <stdio.h>\n\nstatic " ++ p.cellType ++ Text.ascii " mem[" ++
    Decimal.integer p.cells ++ Text.ascii "];\nstatic " ++ p.cellType ++
    Text.ascii " *p = mem;\n\nint " ++ p.entry ++
    Text.ascii "(void);\n\nint main(void) \x7b\n    return " ++ p.entry ++
    Text.ascii "();\n\x7d\n"

def text (p : Prelude) : Text := p.effective.declarations

/-- The first line of the entry function. -/
def header (p : Prelude) : Text :=
  Text.ascii "int " ++ p.effective.entry ++ Text.ascii "(void) \x7b\n"

end Prelude

namespace CText

/-- One line at a depth; a negative depth is written as depth zero. -/
def line (depth : Int) (statement : Text) : Text :=
  Text.spaces (4 * depth.toNat) ++ statement ++ [Byte.newline]

/-- The depth at which the line of a byte is written: a loop end already stands
outside its loop. -/
def depthOf (depth : Int) (b : UInt8) : Int :=
  match Instruction.ofByte? b with
  | some .loopEnd => depth - 1
  | _ => depth

/-- The depth after a byte. -/
def depthAfter (depth : Int) (b : UInt8) : Int :=
  match Instruction.ofByte? b with
  | some .loopStart => depth + 1
  | some .loopEnd => depth - 1
  | _ => depth

def lines (depth : Int) : Text → Text
  | [] => []
  | b :: rest => line (depthOf depth b) (statementOf b) ++ lines (depthAfter depth b) rest

/-- What follows the header of the entry function. -/
def body (code : Text) : Text :=
  lines 1 code ++ line (code.foldl depthAfter 1) (Text.ascii "return 0;") ++ Text.ascii "\x7d\n"

/-- The C text of a code. -/
def render (p : Prelude) (code : Text) : Text :=
  p.text ++ [Byte.newline] ++ p.header ++ body code

/-- The C text of a code after what a buffer already holds. -/
def appendTo (buffer : Text) (p : Prelude) (code : Text) : Text := buffer ++ render p code

theorem lines_append (depth : Int) (a b : Text) :
    lines depth (a ++ b) = lines depth a ++ lines (a.foldl depthAfter depth) b := by
  induction a generalizing depth with
  | nil => rfl
  | cons x rest ih => simp [lines, ih]

end CText
end TapeC
