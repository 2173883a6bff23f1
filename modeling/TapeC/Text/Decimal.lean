import TapeC.Text

/-!
Decimal numbers: writing an integer, and reading a signed 64-bit one.

Reading goes from left to right and stops at the first thing wrong, so a digit
string that has already left the unsigned 64-bit range is out of range whatever
follows it, while a stray byte before that point is a syntax fault.
-/

namespace TapeC
namespace Decimal

def natural (n : Nat) : Text := (Nat.toDigits 10 n).map fun c => c.toNat.toUInt8

/-- A minus sign stands before negative numbers only. -/
def integer : Int → Text
  | .ofNat n => natural n
  | .negSucc n => Byte.minus :: natural (n + 1)

def isDigit (b : UInt8) : Bool := Byte.zero ≤ b && b ≤ Byte.nine

def digitValue (b : UInt8) : Nat := b.toNat - Byte.zero.toNat

/-- The first natural number past the unsigned 64-bit range. -/
def unsignedLimit : Nat := 18446744073709551616

/-- The first natural number past the signed 64-bit range.  Its negative is still
inside. -/
def signedLimit : Nat := 9223372036854775808

/-- Why a text is not a signed 64-bit decimal. -/
inductive Fault where
  | syntactic
  | outOfRange
  deriving DecidableEq, Repr

/-- The number whose leading digits are worth `acc` and whose remaining digits are
the text. -/
def digits : Nat → Text → Except Fault Nat
  | acc, [] => .ok acc
  | acc, b :: rest =>
    if isDigit b then
      let next := acc * 10 + digitValue b
      if next < unsignedLimit then digits next rest else .error .outOfRange
    else .error .syntactic

/-- An optional sign and at least one digit, worth a number in the signed
64-bit range. -/
def read64 (t : Text) : Except Fault Int :=
  let (negative, rest) : Bool × Text := match t with
    | Byte.plus :: rest => (false, rest)
    | Byte.minus :: rest => (true, rest)
    | _ => (false, t)
  if rest.isEmpty then .error .syntactic
  else match digits 0 rest with
    | .error fault => .error fault
    | .ok n =>
      if negative then
        if n ≤ signedLimit then .ok (-(n : Int)) else .error .outOfRange
      else if n < signedLimit then .ok n else .error .outOfRange

/-! ## Digits -/

theorem isDigit_iff_toNat {b : UInt8} : isDigit b = true ↔ 48 ≤ b.toNat ∧ b.toNat ≤ 57 := by
  rw [isDigit, Bool.and_eq_true, decide_eq_true_eq, decide_eq_true_eq, UInt8.le_iff_toNat_le,
    UInt8.le_iff_toNat_le]
  exact Iff.rfl

/-- A decimal digit is a byte of the same number. -/
theorem toNat_byte_of_isDigit {c : Char} (h : c.isDigit) :
    c.toNat.toUInt8.toNat = c.toNat ∧ 48 ≤ c.toNat ∧ c.toNat ≤ 57 := by
  simp only [Char.isDigit, Bool.and_eq_true, decide_eq_true_eq, UInt32.le_iff_toNat_le] at h
  have hlow : 48 ≤ c.toNat := h.1
  have hhigh : c.toNat ≤ 57 := h.2
  refine ⟨?_, hlow, hhigh⟩
  simp only [Nat.toUInt8_eq, UInt8.toNat_ofNat']
  omega

theorem isDigit_of_mem_natural {n : Nat} {b : UInt8} (h : b ∈ natural n) : isDigit b = true := by
  obtain ⟨c, hc, rfl⟩ := List.mem_map.1 h
  obtain ⟨hbyte, hrange⟩ :=
    toNat_byte_of_isDigit (Nat.isDigit_of_mem_toDigits (by decide) (by decide) hc)
  rw [isDigit_iff_toNat, hbyte]
  exact hrange

theorem natural_ne_nil (n : Nat) : natural n ≠ [] := by
  simp [natural]

theorem natural_injective {m n : Nat} (h : natural m = natural n) : m = n := by
  have hback : ∀ k, (natural k).map (fun b => Char.ofNat b.toNat) = Nat.toDigits 10 k := by
    intro k
    rw [natural, List.map_map]
    refine (List.map_congr_left fun c hc => ?_).trans (List.map_id _)
    have hdigit := Nat.isDigit_of_mem_toDigits (by decide) (by decide) hc
    show Char.ofNat c.toNat.toUInt8.toNat = c
    rw [(toNat_byte_of_isDigit hdigit).1, Char.ofNat_toNat]
  have hdigits : Nat.toDigits 10 m = Nat.toDigits 10 n := by rw [← hback m, ← hback n, h]
  have hm := Nat.ofDigitChars_ten_toDigits (n := m)
  rwa [hdigits, Nat.ofDigitChars_ten_toDigits, eq_comm] at hm

/-- Where digits end is settled by the first byte that is none, so two numbers before
such bytes are told apart. -/
theorem natural_append_cons_inj {m n : Nat} {a b : UInt8} {x y : Text} (ha : isDigit a = false)
    (hb : isDigit b = false) (h : natural m ++ a :: x = natural n ++ b :: y) : m = n := by
  have hcut : ∀ (k : Nat) {c : UInt8} (t : Text), isDigit c = false →
      (natural k ++ c :: t).takeWhile isDigit = natural k := by
    intro k c t hc
    rw [List.takeWhile_append_of_pos fun d hd => isDigit_of_mem_natural hd,
      List.takeWhile_cons_of_neg (by rw [hc]; decide), List.append_nil]
  apply natural_injective
  rw [← hcut m x ha, ← hcut n y hb, h]

end Decimal
end TapeC
