import TapeC.Text.Decimal
import TapeC.Text.Quoted

/-!
Durations such as `1h2m3.5s`, in nanoseconds.

A duration is an optional sign and then `0` alone, or one or more terms, each a
decimal number with an optional fraction followed by a unit.  A unit is
everything up to the next digit or point.  The faults are found from left to
right, and a term that is too large is an invalid duration.
-/

namespace TapeC
namespace Duration

inductive Fault where
  | invalid
  | missingUnit
  | unknownUnit (unit : Text)
  deriving DecidableEq, Repr

/-- Nanoseconds in a unit.  The micro sign and the Greek letter mu are both
accepted. -/
def unitOf (u : Text) : Option Nat :=
  if u = Text.ascii "ns" then some 1
  else if u = Text.ascii "us" || u = [0xC2, 0xB5, 115] || u = [0xCE, 0xBC, 115] then some 1000
  else if u = Text.ascii "ms" then some 1000000
  else if u = Text.ascii "s" then some 1000000000
  else if u = Text.ascii "m" then some 60000000000
  else if u = Text.ascii "h" then some 3600000000000
  else none

/-- The value of a digit string, absent above the signed limit. -/
def whole (ds : Text) : Option Nat :=
  let n := ds.foldl (fun acc b => acc * 10 + Decimal.digitValue b) 0
  if n ≤ Decimal.signedLimit then some n else none

/-- A fraction as a numerator and the number of its digits.  Leading zeros count
as digits; digits past the range of 63 bits are dropped. -/
def fraction (ds : Text) : Nat × Nat :=
  let step : Nat × Nat × Bool → UInt8 → Nat × Nat × Bool := fun (n, places, full) b =>
    let next := n * 10 + Decimal.digitValue b
    if full || (Decimal.signedLimit - 1) / 10 < n || Decimal.signedLimit < next then
      (n, places, true)
    else (next, places + 1, false)
  let (n, places, _) := ds.foldl step (0, 0, false)
  (n, places)

/-- Ten to the power of `places` in double precision, rounded after each factor. -/
def powerOfTen : (places : Nat) → Float
  | 0 => 1.0
  | places + 1 => powerOfTen places * 10.0

/-- Nanoseconds in the fraction `n / 10 ^ places` of a unit, in double precision:
the quotient of unit and power is rounded first, then the product, and the rest
of a nanosecond is dropped. -/
def fractionNanoseconds (n places unit : Nat) : Nat :=
  if n = 0 then 0
  else (n.toUInt64.toFloat * (unit.toUInt64.toFloat / powerOfTen places)).toUInt64.toNat

/-- Nanoseconds of one term: `v` units and the fraction `after`. -/
def termNanoseconds (v : Nat) (after unitName : Text) : Except Fault Nat :=
  if unitName.isEmpty then .error .missingUnit
  else match unitOf unitName with
    | none => .error (.unknownUnit unitName)
    | some unit =>
      if Decimal.signedLimit / unit < v then .error .invalid
      else
        let (n, places) := fraction after
        let total := v * unit + fractionNanoseconds n places unit
        if Decimal.signedLimit < total then .error .invalid else .ok total

def isNumeral (b : UInt8) : Bool := b == Byte.point || Decimal.isDigit b

/-- The digits after a point, if the text starts with one, and what follows. -/
def splitFraction : Text → Text × Text
  | Byte.point :: rest => rest.span Decimal.isDigit
  | t => ([], t)

/-- Sum of the terms of a text.  Every term takes at least one byte, so `fuel` is
enough when it is the length of the text.  The sum is a 64-bit word: it starts again
at zero past the unsigned range. -/
def terms : (fuel : Nat) → (sum : Nat) → Text → Except Fault Nat
  | 0, sum, _ => .ok sum
  | fuel + 1, sum, t =>
    if t.isEmpty then .ok sum
    else if !(t.head?.any isNumeral) then .error .invalid
    else
      let (before, rest) := t.span Decimal.isDigit
      let (after, rest) := splitFraction rest
      match whole before with
      | none => .error .invalid
      | some v =>
        if before.isEmpty && after.isEmpty then .error .invalid
        else
          let (unitName, rest) := rest.span (!isNumeral ·)
          match termNanoseconds v after unitName with
          | .error fault => .error fault
          | .ok n =>
            let sum := (sum + n) % Decimal.unsignedLimit
            if Decimal.signedLimit < sum then .error .invalid else terms fuel sum rest

def read (t : Text) : Except Fault Int :=
  let (negative, rest) : Bool × Text := match t with
    | Byte.plus :: rest => (false, rest)
    | Byte.minus :: rest => (true, rest)
    | _ => (false, t)
  if rest = [Byte.zero] then .ok 0
  else if rest.isEmpty then .error .invalid
  else match terms rest.length 0 rest with
    | .error fault => .error fault
    | .ok n =>
      if negative then .ok (-(n : Int))
      else if n < Decimal.signedLimit then .ok n else .error .invalid

def Fault.message (t : Text) : Fault → Text
  | .invalid => Text.ascii "time: invalid duration " ++ Text.quotedBytes t
  | .missingUnit => Text.ascii "time: missing unit in duration " ++ Text.quotedBytes t
  | .unknownUnit u =>
    Text.ascii "time: unknown unit " ++ Text.quotedBytes u ++ Text.ascii " in duration " ++
      Text.quotedBytes t

end Duration
end TapeC
