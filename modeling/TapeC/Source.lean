import TapeC.Instruction

/-!
Source texts.

The instructions of a text are its instruction bytes, and everything else is a
comment.  The analysis counts instructions, a reader counts bytes, and `offsets`
is the table from the one to the other.
-/

namespace TapeC
namespace Source

/-- The instruction bytes of a text, in order. -/
def filtered (text : Text) : Text := text.filter isInstruction

/-- The byte offsets of the instructions of a text, in order. -/
def offsets (text : Text) : List Nat :=
  (text.zipIdx.filter fun p => isInstruction p.1).map Prod.snd

@[simp] theorem filtered_append (a b : Text) : filtered (a ++ b) = filtered a ++ filtered b := by
  simp [filtered]

theorem filtered_filtered (text : Text) : filtered (filtered text) = filtered text := by
  simp [filtered]

theorem length_offsets (text : Text) : (offsets text).length = (filtered text).length := by
  have key : ∀ (t : Text) (n : Nat),
      ((t.zipIdx n).filter fun p => isInstruction p.1).length = (t.filter isInstruction).length := by
    intro t
    induction t with
    | nil => intro n; rfl
    | cons b rest ih =>
      intro n
      by_cases h : isInstruction b <;> simp [List.zipIdx_cons, h, ih]
  simpa [offsets, filtered] using key text 0

/-- The byte offsets of the instructions with the given indexes. -/
def locate (text : Text) (indexes : List Nat) : List Nat :=
  let table := (offsets text).toArray
  indexes.filterMap (table[·]?)

end Source
end TapeC
