import Mathlib.Data.List.DropRight
import TapeC.Position

/-!
Positions as a reader counts them.

The line of an offset is one more than the line breaks before it, and its column is
one more than the bytes since the last of them (`after_start`).  Every byte moves the
position forward in reading order, so a later offset stands at a later position
(`before_ofOffset`).
-/

namespace TapeC
namespace Position

theorem advance_newline (p : Position) : p.advance Byte.newline = ⟨p.line + 1, 1⟩ := rfl

theorem advance_of_ne {b : UInt8} (h : b ≠ Byte.newline) (p : Position) :
    p.advance b = ⟨p.line, p.column + 1⟩ := if_neg h

theorem after_concat (p : Position) (t : Text) (b : UInt8) :
    p.after (t ++ [b]) = (p.after t).advance b := by
  simp [after]

theorem after_start (t : Text) :
    start.after t =
      ⟨1 + t.count Byte.newline, 1 + (t.rtakeWhile (· ≠ Byte.newline)).length⟩ := by
  induction t using List.reverseRecOn with
  | nil => rfl
  | append_singleton t b ih =>
    rw [after_concat, ih]
    by_cases hb : b = Byte.newline
    · subst hb
      rw [advance_newline, List.rtakeWhile_concat_neg _ _ _ (by decide)]
      simp [Nat.add_assoc]
    · rw [advance_of_ne hb, List.rtakeWhile_concat_pos _ _ _ (by simpa using hb)]
      simp [hb, Nat.add_assoc]

/-! ## Reading order -/

/-- An earlier line, or an earlier column of the same line. -/
def Before (p q : Position) : Prop :=
  p.line < q.line ∨ p.line = q.line ∧ p.column < q.column

theorem Before.trans {p q r : Position} (h : Before p q) (h' : Before q r) : Before p r := by
  unfold Before at *
  omega

theorem before_advance (p : Position) (b : UInt8) : Before p (p.advance b) := by
  by_cases hb : b = Byte.newline
  · subst hb
    exact Or.inl (Nat.lt_succ_self _)
  · rw [advance_of_ne hb]
    exact Or.inr ⟨rfl, Nat.lt_succ_self _⟩

theorem before_after (p : Position) {t : Text} (h : t ≠ []) : Before p (p.after t) := by
  induction t generalizing p with
  | nil => exact absurd rfl h
  | cons b rest ih =>
    show Before p ((p.advance b).after rest)
    by_cases hrest : rest = []
    · subst hrest
      exact before_advance p b
    · exact (before_advance p b).trans (ih (p.advance b) hrest)

theorem before_ofOffset {text : Text} {a b : Nat} (h : a < b) (hb : b ≤ text.length) :
    Before (ofOffset text a) (ofOffset text b) := by
  have hsplit : text.take b = text.take a ++ (text.take b).drop a := by
    have hcut := List.take_append_drop a (text.take b)
    rw [List.take_take, Nat.min_eq_left (Nat.le_of_lt h)] at hcut
    exact hcut.symm
  have hmore : (text.take b).drop a ≠ [] := by
    apply List.ne_nil_of_length_pos
    rw [List.length_drop, List.length_take]
    omega
  show Before (start.after (text.take a)) (start.after (text.take b))
  rw [hsplit, after_append]
  exact before_after _ hmore

end Position
end TapeC
