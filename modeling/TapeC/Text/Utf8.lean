import TapeC.Text

/-!
Characters of a byte string.

`glyphs` cuts a text into characters.  A byte that starts no valid UTF-8 sequence
is a glyph of its own without a code point, so the cut loses nothing: the bytes of
the glyphs are the text, which is `flatMap_bytes_glyphs`.
-/

namespace TapeC

/-- One character of a text with its bytes; `code` is absent for a byte that
belongs to no character. -/
structure Glyph where
  code : Option Nat
  bytes : Text
  deriving DecidableEq, Repr

namespace Glyph

def isTail (b : UInt8) : Bool := 0x80 ≤ b && b ≤ 0xBF

/-- Six bits of a continuation byte. -/
def tailBits (b : UInt8) : Nat := b.toNat - 0x80

/-- The code point and the number of continuation bytes of the character that a
text starts with.  The ranges of the second byte exclude overlong forms,
surrogates and code points above `0x10FFFF`. -/
def leading : Text → Option (Nat × Nat)
  | [] => none
  | a :: rest =>
    if a < 0x80 then some (a.toNat, 0)
    else if 0xC2 ≤ a && a ≤ 0xDF then
      match rest with
      | b :: _ => if isTail b then some ((a.toNat - 0xC0) * 64 + tailBits b, 1) else none
      | _ => none
    else if 0xE0 ≤ a && a ≤ 0xEF then
      match rest with
      | b :: c :: _ =>
        let low : UInt8 := if a = 0xE0 then 0xA0 else 0x80
        let high : UInt8 := if a = 0xED then 0x9F else 0xBF
        if low ≤ b && b ≤ high && isTail c then
          some (((a.toNat - 0xE0) * 64 + tailBits b) * 64 + tailBits c, 2)
        else none
      | _ => none
    else if 0xF0 ≤ a && a ≤ 0xF4 then
      match rest with
      | b :: c :: d :: _ =>
        let low : UInt8 := if a = 0xF0 then 0x90 else 0x80
        let high : UInt8 := if a = 0xF4 then 0x8F else 0xBF
        if low ≤ b && b ≤ high && isTail c && isTail d then
          some ((((a.toNat - 0xF0) * 64 + tailBits b) * 64 + tailBits c) * 64 + tailBits d, 3)
        else none
      | _ => none
    else none

/-- The glyphs of a text whose first `skip` bytes belong to a glyph already cut. -/
def cut : (skip : Nat) → Text → List Glyph
  | _, [] => []
  | skip + 1, _ :: rest => cut skip rest
  | 0, b :: rest =>
    match leading (b :: rest) with
    | some (code, tails) => ⟨some code, b :: rest.take tails⟩ :: cut tails rest
    | none => ⟨none, [b]⟩ :: cut 0 rest

theorem flatMap_bytes_cut (skip : Nat) (t : Text) :
    (cut skip t).flatMap Glyph.bytes = t.drop skip := by
  induction t generalizing skip with
  | nil => cases skip <;> rfl
  | cons b rest ih =>
    cases skip with
    | succ skip => simpa [cut] using ih skip
    | zero =>
      rw [cut]
      split
      · rename_i code tails _
        simp [ih tails]
      · simp [ih 0]

end Glyph

namespace Text

def glyphs (t : Text) : List Glyph := Glyph.cut 0 t

theorem flatMap_bytes_glyphs (t : Text) : (glyphs t).flatMap Glyph.bytes = t := by
  simpa [glyphs] using Glyph.flatMap_bytes_cut 0 t

end Text
end TapeC
