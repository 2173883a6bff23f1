import TapeC.CommandLine.Request

/-!
Arguments and what they ask for.

A number that was written in decimal is read back (`Decimal.read64_integer`), whatever
its sign, so every 64-bit number can be given to a flag.  The rest are the steps of
reading an argument list, one for each kind of argument that is accepted.
-/

namespace TapeC

/-! ## Numbers read back -/

namespace Decimal

theorem le_ofDigitChars (cs : List Char) (acc : Nat) : acc ≤ Nat.ofDigitChars 10 cs acc := by
  induction cs generalizing acc with
  | nil => exact Nat.le_refl acc
  | cons c cs ih =>
    rw [Nat.ofDigitChars_cons]
    have := ih (10 * acc + (c.toNat - '0'.toNat))
    omega

/-- Digits are worth their number as long as that is in range; then every beginning of
them is in range too. -/
theorem digits_map_byte {cs : List Char} (hcs : ∀ c ∈ cs, c.isDigit = true) {acc : Nat}
    (h : Nat.ofDigitChars 10 cs acc < unsignedLimit) :
    digits acc (cs.map fun c => c.toNat.toUInt8) = .ok (Nat.ofDigitChars 10 cs acc) := by
  induction cs generalizing acc with
  | nil => rfl
  | cons c cs ih =>
    obtain ⟨hbyte, hlow, hhigh⟩ := toNat_byte_of_isDigit (hcs c List.mem_cons_self)
    have hdigit : isDigit c.toNat.toUInt8 = true := by
      rw [isDigit_iff_toNat, hbyte]
      exact ⟨hlow, hhigh⟩
    have hvalue : acc * 10 + digitValue c.toNat.toUInt8 = 10 * acc + (c.toNat - '0'.toNat) := by
      rw [digitValue, hbyte, Nat.mul_comm]
      rfl
    rw [Nat.ofDigitChars_cons] at h ⊢
    have hnext := Nat.lt_of_le_of_lt (le_ofDigitChars cs _) h
    rw [List.map_cons, digits, if_pos hdigit, hvalue]
    simp only [hnext, if_true]
    exact ih (fun d hd => hcs d (List.mem_cons_of_mem c hd)) h

theorem digits_natural {n : Nat} (h : n < unsignedLimit) : digits 0 (natural n) = .ok n := by
  have hvalue : Nat.ofDigitChars 10 (Nat.toDigits 10 n) 0 = n := Nat.ofDigitChars_ten_toDigits
  have hread : digits 0 (natural n) = .ok (Nat.ofDigitChars 10 (Nat.toDigits 10 n) 0) :=
    digits_map_byte (fun c hc => Nat.isDigit_of_mem_toDigits (by decide) (by decide) hc)
      (by rwa [hvalue])
  rwa [hvalue] at hread

/-- Without a sign the digits are all there is. -/
theorem read64_natural {n : Nat} (h : n < signedLimit) : read64 (natural n) = .ok (n : Int) := by
  have hread := digits_natural (n := n) (by unfold signedLimit unsignedLimit at *; omega)
  cases htext : natural n with
  | nil => exact absurd htext (natural_ne_nil n)
  | cons d ds =>
    have hd : isDigit d = true := isDigit_of_mem_natural (by rw [htext]; exact List.mem_cons_self)
    rw [htext] at hread
    unfold read64
    split
    next negative rest hsign =>
      split at hsign
      · next heq =>
        obtain ⟨rfl, _⟩ := List.cons.inj heq
        exact absurd hd (by decide)
      · next heq =>
        obtain ⟨rfl, _⟩ := List.cons.inj heq
        exact absurd hd (by decide)
      · obtain ⟨rfl, rfl⟩ := Prod.mk.inj hsign
        simp [hread, h]

theorem read64_minus (rest : Text) :
    read64 (Byte.minus :: rest) =
      if rest.isEmpty then .error .syntactic
      else match digits 0 rest with
        | .error fault => .error fault
        | .ok n => if n ≤ signedLimit then .ok (-(n : Int)) else .error .outOfRange := rfl

theorem read64_negative {n : Nat} (h : n ≤ signedLimit) :
    read64 (Byte.minus :: natural n) = .ok (-(n : Int)) := by
  have hread := digits_natural (n := n) (by unfold signedLimit unsignedLimit at *; omega)
  simp [read64_minus, natural_ne_nil, hread, h]

theorem read64_integer {n : Int} (hlow : -(signedLimit : Int) ≤ n) (hhigh : n < signedLimit) :
    read64 (integer n) = .ok n := by
  cases n with
  | ofNat m => exact read64_natural (Int.ofNat_lt.1 hhigh)
  | negSucc m =>
    have hm : m + 1 ≤ signedLimit := by
      rw [Int.negSucc_eq] at hlow
      omega
    exact read64_negative hm

end Decimal

/-! ## Arguments read from left to right -/

namespace CommandLine

theorem assignFor_cells {c : Command} (hc : c.owns .cells = true) {numeral : Text} {n : Int}
    (h : Decimal.read64 numeral = .ok n) (s : Settings) :
    Flag.assignFor c .cells numeral s = .ok { s with cells := n } := by
  have hassign : Flag.assign .cells numeral s = .ok { s with cells := n } := by
    rw [Flag.assign, h]
    rfl
  rw [Flag.assignFor, hassign, hc]
  rfl

theorem assignFor_output {c : Command} (hc : c.owns .output = true) (value : Text)
    (s : Settings) : Flag.assignFor c .output value s = .ok { s with output := value } := by
  rw [Flag.assignFor, hc]
  rfl

namespace Request

variable {c : Command} {s s' : Settings} {inputs rest : List Text} {a name value : Text}

theorem read_input (h : Word.classify c a = .input) :
    read c s inputs (a :: rest) = read c s (inputs ++ [a]) rest := by
  rw [read, h]

theorem read_command {sub : Command} {r : Request} (h : Word.classify c a = .command sub)
    (hrest : read sub sub.defaults [] rest = .ok r) : read c s inputs (a :: rest) = .ok r := by
  rw [read, h]
  show (read sub sub.defaults [] rest).mapError _ = _
  rw [hrest]
  rfl

/-- A flag that is no switch takes the next argument, whatever it looks like. -/
theorem read_flag {f : Flag} (h : Word.classify c a = .flag name none)
    (hname : Flag.ofName? name = some f) (hswitch : f.isSwitch = false)
    (hassign : f.assignFor c value s = .ok s') :
    read c s inputs (a :: value :: rest) = read c s' inputs rest := by
  rw [read, h]
  simp only [hname, hswitch, hassign]
  rfl

end Request
end CommandLine
end TapeC
