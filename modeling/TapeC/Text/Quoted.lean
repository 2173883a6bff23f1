import TapeC.Text.Utf8
import TapeC.Text.Printable

/-!
Quoted texts, as they stand in messages.

Two rules are in use.  `quoted` keeps printable characters of any script and
names control characters by letter where they have one.  `quotedBytes` looks at
single bytes and escapes everything outside ASCII.  Both put a backslash before a
quote and before a backslash.
-/

namespace TapeC
namespace Text

/-- The letter after the backslash for the control characters that have one. -/
def controlLetter : Nat → Option UInt8
  | 7 => some 97
  | 8 => some 98
  | 9 => some 116
  | 10 => some 110
  | 11 => some 118
  | 12 => some 102
  | 13 => some 114
  | _ => none

def quotedGlyph (r : Glyph) : Text :=
  match r.code with
  | none => r.bytes.flatMap hexEscape
  | some c =>
    if c = Byte.quote.toNat || c = Byte.backslash.toNat then Byte.backslash :: r.bytes
    else if Printable.contains c then r.bytes
    else match controlLetter c with
      | some letter => [Byte.backslash, letter]
      | none =>
        if c < 0x80 then r.bytes.flatMap hexEscape
        else if c < 0x10000 then ascii "\\u" ++ hex 4 c
        else ascii "\\U" ++ hex 8 c

def quoted (t : Text) : Text := Byte.quote :: (glyphs t).flatMap quotedGlyph ++ [Byte.quote]

def quotedByte (b : UInt8) : Text :=
  if b = Byte.quote || b = Byte.backslash then [Byte.backslash, b]
  else if b < 0x20 || 0x80 ≤ b then hexEscape b
  else [b]

def quotedBytes (t : Text) : Text := Byte.quote :: t.flatMap quotedByte ++ [Byte.quote]

end Text
end TapeC
