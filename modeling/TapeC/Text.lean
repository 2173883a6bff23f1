/-!
Byte strings.

Source programs, file names, C texts and messages are all sequences of bytes that
need not be valid UTF-8, and every offset, column and length counts bytes.  They
are lists, so that scans over them are structural recursions and a statement
about `a ++ b` is a statement about two scans.
-/

namespace TapeC

/-! ## Bytes with a name -/

namespace Byte

@[match_pattern] abbrev tab : UInt8 := 9
@[match_pattern] abbrev newline : UInt8 := 10
@[match_pattern] abbrev space : UInt8 := 32
@[match_pattern] abbrev quote : UInt8 := 34
@[match_pattern] abbrev plus : UInt8 := 43
@[match_pattern] abbrev comma : UInt8 := 44
@[match_pattern] abbrev minus : UInt8 := 45
@[match_pattern] abbrev point : UInt8 := 46
@[match_pattern] abbrev slash : UInt8 := 47
@[match_pattern] abbrev zero : UInt8 := 48
@[match_pattern] abbrev nine : UInt8 := 57
@[match_pattern] abbrev colon : UInt8 := 58
@[match_pattern] abbrev equals : UInt8 := 61
@[match_pattern] abbrev openBracket : UInt8 := 91
@[match_pattern] abbrev backslash : UInt8 := 92
@[match_pattern] abbrev closeBracket : UInt8 := 93

end Byte

/-! ## Texts -/

abbrev Text := List UInt8

namespace Text

/-- The bytes of an ASCII constant, one for each character.  It goes through the
list of characters so that the kernel evaluates constants. -/
def ascii (s : String) : Text := s.toList.map fun c => c.toNat.toUInt8

def spaces (n : Nat) : Text := List.replicate n Byte.space

/-- One lower-case hexadecimal digit. -/
def hexDigit (n : Nat) : UInt8 :=
  if n % 16 < 10 then (48 + n % 16).toUInt8 else (87 + n % 16).toUInt8

/-- The last `width` hexadecimal digits of `n`. -/
def hex : (width : Nat) → (n : Nat) → Text
  | 0, _ => []
  | width + 1, n => hex width (n / 16) ++ [hexDigit n]

/-- A byte written as `\xNN`. -/
def hexEscape (b : UInt8) : Text := ascii "\\x" ++ hex 2 b.toNat

/-- Upper-case ASCII letters become lower-case ones; all other bytes stay. -/
def lowerByte (b : UInt8) : UInt8 := if 65 ≤ b ∧ b ≤ 90 then b + 32 else b

theorem ascii_append (s t : String) : ascii (s ++ t) = ascii s ++ ascii t := by
  simp [ascii]

@[simp] theorem length_spaces (n : Nat) : (spaces n).length = n := by
  simp [spaces]

theorem spaces_add (m n : Nat) : spaces (m + n) = spaces m ++ spaces n := by
  simp [spaces]

@[simp] theorem length_hex (width n : Nat) : (hex width n).length = width := by
  induction width generalizing n with
  | zero => rfl
  | succ width ih => simp [hex, ih]

end Text
end TapeC
