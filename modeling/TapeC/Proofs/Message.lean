import Mathlib.Data.List.Basic
import TapeC.Failure
import TapeC.Proofs.Arguments

/-!
Reading positions back from the message of an unbalanced program.

Each position has an entry, a space and a numeral, and a comma stands between two
entries.  A numeral is digits with at most a minus sign before them, so no entry holds a
comma and the commas are where a list falls into its entries (`entries_positionList`).
Splitting alone takes the empty list for a list with one empty entry, which is why the
empty text is a case of its own.  An entry tells its integer from all others, and the
reader that the command line has for numbers reads it if it is a 64-bit integer.
-/

namespace TapeC

/-! ## Numerals -/

namespace Decimal

theorem isDigit_or_eq_minus_of_mem_integer {n : Int} {b : UInt8} (h : b ∈ integer n) :
    isDigit b = true ∨ b = Byte.minus := by
  cases n with
  | ofNat m => exact .inl (isDigit_of_mem_natural h)
  | negSucc m =>
    rcases List.mem_cons.1 h with hminus | hdigit
    · exact .inr hminus
    · exact .inl (isDigit_of_mem_natural hdigit)

theorem comma_not_mem_integer (n : Int) : Byte.comma ∉ integer n := by
  intro h
  rcases isDigit_or_eq_minus_of_mem_integer h with hdigit | hminus
  · exact absurd hdigit (by decide)
  · exact absurd hminus (by decide)

theorem natural_ne_minus_cons (n : Nat) (rest : Text) : natural n ≠ Byte.minus :: rest := by
  intro h
  have hdigit : isDigit Byte.minus = true :=
    isDigit_of_mem_natural (n := n) (by rw [h]; exact List.mem_cons_self)
  exact absurd hdigit (by decide)

theorem integer_injective : Function.Injective integer := by
  intro m n h
  cases m with
  | ofNat m =>
    cases n with
    | ofNat n => exact congrArg Int.ofNat (natural_injective h)
    | negSucc n => exact absurd h (natural_ne_minus_cons m _)
  | negSucc m =>
    cases n with
    | ofNat n => exact absurd h.symm (natural_ne_minus_cons n _)
    | negSucc n =>
      have hmn : m + 1 = n + 1 := natural_injective (List.cons.inj h).2
      rw [Nat.succ.inj hmn]

end Decimal

namespace Cause

/-! ## Entries of a list -/

/-- One position as it stands in a list. -/
def entry (position : Int) : Text := Byte.space :: Decimal.integer position

theorem entry_injective : Function.Injective entry :=
  fun _ _ h => Decimal.integer_injective (List.cons.inj h).2

theorem comma_not_mem_entry (position : Int) : Byte.comma ∉ entry position := by
  intro h
  rcases List.mem_cons.1 h with hspace | hnumeral
  · exact absurd hspace (by decide)
  · exact Decimal.comma_not_mem_integer position hnumeral

/-- The pieces of a text between its commas, none if there is no text. -/
def entries (t : Text) : List Text := if t.isEmpty then [] else t.splitOn Byte.comma

theorem positionList_ne_nil {positions : List Int} (h : positions ≠ []) :
    positionList positions ≠ [] := by
  cases positions with
  | nil => exact absurd rfl h
  | cons p rest => cases rest <;> simp [positionList, List.intercalate_cons_cons]

theorem entries_positionList (positions : List Int) :
    entries (positionList positions) = positions.map entry := by
  by_cases h : positions = []
  · subst h
    rfl
  · have hcommas : ∀ e ∈ positions.map entry, Byte.comma ∉ e := by
      intro e he
      obtain ⟨p, _, rfl⟩ := List.mem_map.1 he
      exact comma_not_mem_entry p
    rw [entries, if_neg (by simpa using positionList_ne_nil h)]
    exact List.splitOn_intercalate Byte.comma hcommas (by simpa using h)

theorem positionList_injective : Function.Injective positionList := by
  intro a b h
  have hentries : a.map entry = b.map entry := by
    rw [← entries_positionList, ← entries_positionList, h]
  exact entry_injective.list_map hentries

/-! ## Lists read back -/

/-- The position of an entry. -/
def readEntry : Text → Option Int
  | Byte.space :: numeral => (Decimal.read64 numeral).toOption
  | _ => none

/-- The positions of a list, each of them a 64-bit integer. -/
def readPositions (t : Text) : Option (List Int) := (entries t).mapM readEntry

theorem readEntry_entry {p : Int} (hlow : -(Decimal.signedLimit : Int) ≤ p)
    (hhigh : p < Decimal.signedLimit) : readEntry (entry p) = some p := by
  show (Decimal.read64 (Decimal.integer p)).toOption = some p
  rw [Decimal.read64_integer hlow hhigh]
  rfl

theorem readPositions_positionList {positions : List Int}
    (h : ∀ p ∈ positions, -(Decimal.signedLimit : Int) ≤ p ∧ p < Decimal.signedLimit) :
    readPositions (positionList positions) = some positions := by
  rw [readPositions, entries_positionList]
  induction positions with
  | nil => rfl
  | cons p rest ih =>
    obtain ⟨hlow, hhigh⟩ := h p List.mem_cons_self
    have hrest := ih fun q hq => h q (List.mem_cons_of_mem p hq)
    rw [List.map_cons, List.mapM_cons, readEntry_entry hlow hhigh, hrest]
    rfl

/-- Messages of unbalanced programs are equal just if the lists of positions are, for
lists of any length and integers of any size.  What follows the words of a message is
read back as the list, if that holds 64-bit integers. -/
theorem unbalanced_message_determines_positions :
    (∀ a b : List Int, (unbalanced a).message = (unbalanced b).message ↔ a = b) ∧
    ∀ a : List Int,
      (∀ p ∈ a, -(Decimal.signedLimit : Int) ≤ p ∧ p < Decimal.signedLimit) →
      ∃ list, (unbalanced a).message = Text.ascii "unbalanced brackets at" ++ list ∧
        readPositions list = some a := by
  constructor
  · intro a b
    constructor
    · intro h
      exact positionList_injective (List.append_cancel_left h)
    · rintro rfl
      rfl
  · intro a ha
    exact ⟨positionList a, rfl, readPositions_positionList ha⟩

/-- The two ends of the range, a zero and a repetition. -/
theorem unbalanced_message_determines_positions_extreme :
    let a : List Int := [-9223372036854775808, 0, 9223372036854775807, 0]
    (∀ p ∈ a, -(Decimal.signedLimit : Int) ≤ p ∧ p < Decimal.signedLimit) ∧
      (unbalanced a).message =
        Text.ascii "unbalanced brackets at -9223372036854775808, 0, 9223372036854775807, 0" ∧
      ∃ list, (unbalanced a).message = Text.ascii "unbalanced brackets at" ++ list ∧
        readPositions list = some a := by
  intro a
  have hrange : ∀ p ∈ a, -(Decimal.signedLimit : Int) ≤ p ∧ p < Decimal.signedLimit := by decide
  exact ⟨hrange, by decide +kernel, unbalanced_message_determines_positions.2 a hrange⟩

end Cause
end TapeC
