import TapeC.Text.Utf8

/-!
The eight instructions of the tape language and the C statement of each.

A program is a byte string.  Bytes that are no instruction are comments, so
everything that looks at a program asks `Instruction.ofByte?` first; `ofByte?_eq_some_iff`
says that it inverts `Instruction.byte`.
-/

namespace TapeC

inductive Instruction where
  | right
  | left
  | increment
  | decrement
  | output
  | input
  | loopStart
  | loopEnd
  deriving DecidableEq, Repr

namespace Instruction

/-- The bytes `>`, `<`, `+`, `-`, `.`, `,`, `[` and `]`. -/
def byte : Instruction → UInt8
  | right => 62
  | left => 60
  | increment => Byte.plus
  | decrement => Byte.minus
  | output => Byte.point
  | input => Byte.comma
  | loopStart => Byte.openBracket
  | loopEnd => Byte.closeBracket

def all : List Instruction :=
  [right, left, increment, decrement, output, input, loopStart, loopEnd]

def ofByte? (b : UInt8) : Option Instruction := all.find? fun i => i.byte = b

/-- The C statement of an instruction.  A loop opens a `while` block, and its end
closes the block. -/
def statement : Instruction → Text
  | right => Text.ascii "++p;"
  | left => Text.ascii "--p;"
  | increment => Text.ascii "++*p;"
  | decrement => Text.ascii "--*p;"
  | output => Text.ascii "printf(\"%c\", *p);"
  | input => Text.ascii "scanf(\"%c\", p);"
  | loopStart => Text.ascii "while(*p) \x7b"
  | loopEnd => Text.ascii "\x7d"

theorem ofByte?_byte (i : Instruction) : ofByte? i.byte = some i := by
  cases i <;> rfl

theorem ofByte?_eq_some_iff {b : UInt8} {i : Instruction} : ofByte? b = some i ↔ b = i.byte := by
  constructor
  · intro h
    have found := List.find?_some h
    simpa using (of_decide_eq_true found).symm
  · rintro rfl
    exact ofByte?_byte i

theorem byte_injective {i j : Instruction} (h : i.byte = j.byte) : i = j := by
  have := ofByte?_byte i
  rw [h, ofByte?_byte j] at this
  exact (Option.some.inj this).symm

end Instruction

/-- Whether a byte is an instruction and not a comment. -/
def isInstruction (b : UInt8) : Bool := (Instruction.ofByte? b).isSome

/-- A byte on its own, shown as the character whose code point it is.  From 128 on
that takes two bytes. -/
def characterOf (b : UInt8) : Text :=
  if b < 0x80 then [b] else [0xC0 + b / 64, 0x80 + b % 64]

theorem glyphs_characterOf (b : UInt8) :
    Text.glyphs (characterOf b) = [⟨some b.toNat, characterOf b⟩] := by
  have h : ∀ v : BitVec 8,
      Text.glyphs (characterOf ⟨v⟩) = [⟨some (UInt8.toNat ⟨v⟩), characterOf ⟨v⟩⟩] := by
    decide +kernel
  exact h b.toBitVec

/-- The C statement of a byte, empty for a comment. -/
def statementOf (b : UInt8) : Text :=
  match Instruction.ofByte? b with
  | some i => i.statement
  | none => []

end TapeC
