import TapeC.Instruction

/-!
Bracket analysis.

One left-to-right scan keeps the nesting level, the indexes of the loops still
open and the indexes of the loop ends that had nothing to close.  The level
counts every bracket, so it can come back to its base although brackets are
unmatched, as in `][`; a program is in order only when no bracket is left over.
`Scan.run_append` is what makes the analysis compositional.
-/

namespace TapeC

/-- Merge two lists.  An element of the second list goes first unless the head of
the first list is strictly below it. -/
def merge {α : Type} [LT α] [DecidableLT α] : List α → List α → List α
  | [], ys => ys
  | x :: xs, ys =>
    ys.takeWhile (fun y => ¬ x < y) ++ x :: merge xs (ys.dropWhile fun y => ¬ x < y)

theorem merge_nil_right {α : Type} [LT α] [DecidableLT α] (xs : List α) : merge xs [] = xs := by
  induction xs with
  | nil => rfl
  | cons x xs ih => exact congrArg (x :: ·) ih

theorem merge_cons_cons {α : Type} [LT α] [DecidableLT α] (x : α) (xs : List α) (y : α)
    (ys : List α) :
    merge (x :: xs) (y :: ys) =
      if x < y then x :: merge xs (y :: ys) else y :: merge (x :: xs) ys := by
  by_cases h : x < y
  · rw [if_pos h, merge, List.takeWhile_cons_of_neg (by simpa using h),
      List.dropWhile_cons_of_neg (by simpa using h)]
    rfl
  · rw [if_neg h, merge, List.takeWhile_cons_of_pos (by simpa using h),
      List.dropWhile_cons_of_pos (by simpa using h)]
    rfl

/-- What the scan has seen.  Both lists are latest first: the head of `opened` is
the innermost loop. -/
structure Scan where
  level : Int
  opened : List Nat
  strays : List Nat
  deriving DecidableEq, Repr

namespace Scan

/-- The body of the entry function is at level one. -/
def start : Scan := ⟨1, [], []⟩

def step (s : Scan) (index : Nat) (b : UInt8) : Scan :=
  match Instruction.ofByte? b with
  | some .loopStart => { s with level := s.level + 1, opened := index :: s.opened }
  | some .loopEnd =>
    match s.opened with
    | [] => { s with level := s.level - 1, strays := index :: s.strays }
    | _ :: outer => { s with level := s.level - 1, opened := outer }
  | _ => s

/-- Scan a code whose first byte has the given index. -/
def run (s : Scan) : (index : Nat) → Text → Scan
  | _, [] => s
  | index, b :: rest => (s.step index b).run (index + 1) rest

theorem run_append (s : Scan) (index : Nat) (a b : Text) :
    s.run index (a ++ b) = (s.run index a).run (index + a.length) b := by
  induction a generalizing s index with
  | nil => rfl
  | cons x rest ih =>
    simp only [List.cons_append, run, ih, List.length_cons]
    congr 1
    omega

end Scan

/-- The result of the analysis: the level after the last instruction, and the
indexes of the brackets without a partner in ascending order. -/
structure Balance where
  level : Int
  unmatched : List Nat
  deriving DecidableEq, Repr

namespace Balance

def ofCode (code : Text) : Balance :=
  let s := Scan.start.run 0 code
  { level := s.level, unmatched := merge s.strays.reverse s.opened.reverse }

/-- Whether every bracket has its partner. -/
def inOrder (b : Balance) : Bool := b.level == 1 && b.unmatched.isEmpty

end Balance
end TapeC
