import TapeC.Text.Utf8

/-!
Words between blanks.

The blanks are the characters with the Unicode property White_Space.  A zero
width space is not one of them, and neither is a byte that belongs to no
character.
-/

namespace TapeC
namespace Text

def isBlankCode (c : Nat) : Bool :=
  (0x09 ≤ c && c ≤ 0x0D) || c == 0x20 || c == 0x85 || c == 0xA0 || c == 0x1680 ||
    (0x2000 ≤ c && c ≤ 0x200A) || c == 0x2028 || c == 0x2029 || c == 0x202F ||
    c == 0x205F || c == 0x3000

def isBlank (r : Glyph) : Bool := r.code.any isBlankCode

/-- The nonempty stretches of bytes between blanks. -/
def words (t : Text) : List Text :=
  (((glyphs t).splitOnP isBlank).map (List.flatMap Glyph.bytes)).filter (!·.isEmpty)

end Text
end TapeC
