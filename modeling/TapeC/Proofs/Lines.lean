import Mathlib.Algebra.GroupWithZero.Nat
import Mathlib.Logic.ExistsUnique
import TapeC.Proofs.Position

/-!
Offsets and positions, each from the other.

The lines of a text are the pieces between its line breaks.  A position is in the text
if its line is one of them and its column is at most one past the end of the line, where
the line break or the end of the text stands.  Both ways of counting go through the text
line by line: an offset is on the first line, or it belongs to what follows the first
line break and its position there is one line further down (`ofOffset_first`,
`ofOffset_rest`).  By induction on the lines (`lines_induction`) the two counts invert
each other.
-/

namespace TapeC
namespace Position

/-- The pieces of a text between its line breaks. -/
def pieces (text : Text) : List Text := text.splitOn Byte.newline

/-- The position is on one of the lines, or right at the end of it. -/
structure IsIn (lines : List Text) (p : Position) : Prop where
  line_pos : 1 ≤ p.line
  line_le : p.line ≤ lines.length
  column_pos : 1 ≤ p.column
  column_le : p.column ≤ (lines.getD (p.line - 1) []).length + 1

/-- The bytes before a position: all lines above with their line breaks, and what stands
before the column. -/
def offset (lines : List Text) (p : Position) : Nat :=
  ((lines.take (p.line - 1)).map (·.length + 1)).sum + p.column - 1

/-- The same column, one line further down. -/
def below (p : Position) : Position := ⟨p.line + 1, p.column⟩

/-! ## Line by line -/

theorem pieces_of_not_mem {x : Text} (h : Byte.newline ∉ x) : pieces x = [x] :=
  List.splitOn_eq_singleton h

theorem pieces_append_newline {x : Text} (h : Byte.newline ∉ x) (rest : Text) :
    pieces (x ++ Byte.newline :: rest) = x :: pieces rest :=
  List.splitOn_append_cons_self_of_not_mem h rest

/-- A text is a single line, or a line and a line break before another text. -/
theorem lines_induction {P : Text → Prop} (last : ∀ x, Byte.newline ∉ x → P x)
    (more : ∀ x rest, Byte.newline ∉ x → P rest → P (x ++ Byte.newline :: rest)) (text : Text) :
    P text := by
  induction hn : text.length using Nat.strong_induction_on generalizing text with
  | _ n ih =>
    by_cases hmem : Byte.newline ∈ text
    · obtain ⟨x, rest, rfl, hx⟩ := List.eq_append_cons_of_mem hmem
      refine more x rest hx (ih rest.length ?_ rest rfl)
      rw [List.length_append, List.length_cons] at hn
      omega
    · exact last text hmem

theorem after_of_not_mem {x : Text} (h : Byte.newline ∉ x) (p : Position) :
    p.after x = ⟨p.line, p.column + x.length⟩ := by
  induction x generalizing p with
  | nil => rfl
  | cons b rest ih =>
    have hb : b ≠ Byte.newline := fun e => List.ne_of_not_mem_cons h e.symm
    show (p.advance b).after rest = _
    rw [advance_of_ne hb, ih (List.not_mem_of_not_mem_cons h), List.length_cons]
    simp only [mk.injEq, true_and]
    omega

theorem after_below (p : Position) (t : Text) : p.below.after t = (p.after t).below := by
  induction t generalizing p with
  | nil => rfl
  | cons b rest ih =>
    have hstep : p.below.advance b = (p.advance b).below := by
      by_cases hb : b = Byte.newline
      · subst hb
        rfl
      · rw [advance_of_ne hb, advance_of_ne hb]
        rfl
    show (p.below.advance b).after rest = ((p.advance b).after rest).below
    rw [hstep, ih]

/-! ## The position of an offset -/

theorem ofOffset_first {x : Text} (h : Byte.newline ∉ x) (rest : Text) {n : Nat}
    (hn : n ≤ x.length) : ofOffset (x ++ rest) n = ⟨1, n + 1⟩ := by
  have hbefore : Byte.newline ∉ x.take n := fun hmem => h (List.mem_of_mem_take hmem)
  show start.after ((x ++ rest).take n) = _
  rw [List.take_append_of_le_length hn, after_of_not_mem hbefore, List.length_take_of_le hn]
  show (⟨1, 1 + n⟩ : Position) = _
  rw [Nat.add_comm]

theorem ofOffset_rest {x : Text} (h : Byte.newline ∉ x) (rest : Text) (n : Nat) :
    ofOffset (x ++ Byte.newline :: rest) (x.length + 1 + n : Nat) = (ofOffset rest n).below := by
  have htake : (x ++ Byte.newline :: rest).take (x.length + 1 + n) =
      x ++ Byte.newline :: rest.take n := by
    rw [Nat.add_assoc, Nat.add_comm 1 n, List.take_length_add_append, List.take_succ_cons]
  show start.after ((x ++ Byte.newline :: rest).take (x.length + 1 + n)) = _
  rw [htake, after_append, after_of_not_mem h]
  exact after_below start (rest.take n)

/-! ## The offset of a position -/

theorem isIn_first_iff {x : Text} {lines : List Text} {c : Nat} :
    IsIn (x :: lines) ⟨1, c⟩ ↔ 1 ≤ c ∧ c ≤ x.length + 1 := by
  constructor
  · intro h
    exact ⟨h.column_pos, h.column_le⟩
  · intro h
    obtain ⟨hpos, hle⟩ := h
    exact ⟨Nat.le_refl 1, Nat.succ_le_succ (Nat.zero_le _), hpos, hle⟩

theorem IsIn.cons {x : Text} {lines : List Text} {p : Position} (h : IsIn lines p) :
    IsIn (x :: lines) p.below := by
  obtain ⟨hpos, hle, hcolumn, hend⟩ := h
  have hline : p.below.line - 1 = (p.line - 1) + 1 := by
    show p.line + 1 - 1 = _
    omega
  refine ⟨Nat.succ_le_succ (Nat.zero_le _), Nat.succ_le_succ hle, hcolumn, ?_⟩
  rw [hline, List.getD_cons_succ]
  exact hend

/-- A position below the first line is a position of the lines that follow. -/
theorem IsIn.cases_cons {x : Text} {lines : List Text} {p : Position} (h : IsIn (x :: lines) p) :
    (∃ c, p = ⟨1, c + 1⟩ ∧ c ≤ x.length) ∨ ∃ q : Position, p = q.below ∧ IsIn lines q := by
  obtain ⟨line, column⟩ := p
  obtain ⟨hpos, hle, hcolumn, hend⟩ := h
  match line, column, hpos, hcolumn with
  | 1, c + 1, _, _ => exact Or.inl ⟨c, rfl, Nat.le_of_succ_le_succ hend⟩
  | l + 2, c, _, hc =>
    exact Or.inr ⟨⟨l + 1, c⟩, rfl, Nat.succ_le_succ (Nat.zero_le l), Nat.le_of_succ_le_succ hle,
      hc, hend⟩

theorem offset_first (lines : List Text) (n : Nat) : offset lines ⟨1, n + 1⟩ = n := by
  simp [offset]

theorem offset_below {x : Text} {lines : List Text} {p : Position} (h : IsIn lines p) :
    offset (x :: lines) p.below = x.length + 1 + offset lines p := by
  obtain ⟨hpos, _, hcolumn, _⟩ := h
  have hline : p.below.line - 1 = (p.line - 1) + 1 := by
    show p.line + 1 - 1 = _
    omega
  rw [offset, hline, List.take_succ_cons, List.map_cons, List.sum_cons]
  show x.length + 1 + _ + p.column - 1 = _
  rw [offset]
  omega

/-! ## The two counts invert each other -/

theorem offset_ofOffset (text : Text) : ∀ n ≤ text.length,
    IsIn (pieces text) (ofOffset text n) ∧ offset (pieces text) (ofOffset text n) = n := by
  refine lines_induction (P := fun t => ∀ n ≤ t.length,
    IsIn (pieces t) (ofOffset t n) ∧ offset (pieces t) (ofOffset t n) = n) ?_ ?_ text
  · intro x hx n hn
    have hfirst := ofOffset_first hx [] hn
    rw [List.append_nil] at hfirst
    rw [pieces_of_not_mem hx, hfirst]
    exact ⟨isIn_first_iff.2 ⟨by omega, by omega⟩, offset_first _ n⟩
  · intro x rest hx ih n hn
    rw [pieces_append_newline hx]
    rcases Nat.lt_or_ge x.length n with hlt | hge
    · obtain ⟨m, rfl⟩ : ∃ m, n = x.length + 1 + m := ⟨n - x.length - 1, by omega⟩
      rw [List.length_append, List.length_cons] at hn
      obtain ⟨hin, hoffset⟩ := ih m (by omega)
      rw [ofOffset_rest hx, offset_below hin, hoffset]
      exact ⟨hin.cons, rfl⟩
    · rw [ofOffset_first hx _ hge]
      exact ⟨isIn_first_iff.2 ⟨by omega, by omega⟩, offset_first _ n⟩

theorem ofOffset_offset (text : Text) : ∀ p, IsIn (pieces text) p →
    offset (pieces text) p ≤ text.length ∧ ofOffset text (offset (pieces text) p) = p := by
  refine lines_induction (P := fun t => ∀ p, IsIn (pieces t) p →
    offset (pieces t) p ≤ t.length ∧ ofOffset t (offset (pieces t) p) = p) ?_ ?_ text
  · intro x hx p hp
    rw [pieces_of_not_mem hx] at hp ⊢
    rcases hp.cases_cons with ⟨c, rfl, hc⟩ | ⟨q, rfl, hq⟩
    · have hfirst := ofOffset_first hx [] hc
      rw [List.append_nil] at hfirst
      rw [offset_first]
      exact ⟨hc, hfirst⟩
    · have hnone := Nat.le_trans hq.line_pos hq.line_le
      exact absurd hnone (Nat.not_succ_le_zero 0)
  · intro x rest hx ih p hp
    rw [pieces_append_newline hx] at hp ⊢
    rw [List.length_append, List.length_cons]
    rcases hp.cases_cons with ⟨c, rfl, hc⟩ | ⟨q, rfl, hq⟩
    · rw [offset_first, ofOffset_first hx _ hc]
      exact ⟨by omega, rfl⟩
    · obtain ⟨hle, hback⟩ := ih q hq
      rw [offset_below hq, ofOffset_rest hx, hback]
      exact ⟨by omega, rfl⟩

/-- Offsets within a text and positions in it are the same thing counted in two ways.
The position of an offset is in the text and has this offset, a position in the text is
that of one offset only, and of two offsets the later one has the later position.  Offsets
outside of the text count as its start and its end. -/
theorem ofOffset_bijective (text : Text) :
    (∀ o : Int, 0 ≤ o → o ≤ text.length →
      IsIn (pieces text) (ofOffset text o) ∧ o = offset (pieces text) (ofOffset text o)) ∧
    (∀ p, IsIn (pieces text) p →
      ∃! o : Int, (0 ≤ o ∧ o ≤ text.length) ∧ ofOffset text o = p) ∧
    (∀ a b : Int, 0 ≤ a → a < b → b ≤ text.length →
      (ofOffset text a).Before (ofOffset text b)) ∧
    (∀ o : Int, o < 0 → ofOffset text o = ofOffset text 0) ∧
    ∀ o : Int, text.length < o → ofOffset text o = ofOffset text text.length := by
  have hinverse : ∀ o : Int, 0 ≤ o → o ≤ text.length →
      IsIn (pieces text) (ofOffset text o) ∧ o = offset (pieces text) (ofOffset text o) := by
    intro o hpos hle
    obtain ⟨n, rfl⟩ := Int.eq_ofNat_of_zero_le hpos
    obtain ⟨hin, hoffset⟩ := offset_ofOffset text n (by omega)
    exact ⟨hin, congrArg Int.ofNat hoffset.symm⟩
  refine ⟨hinverse, ?_, ?_, ?_, ?_⟩
  · intro p hp
    obtain ⟨hle, hback⟩ := ofOffset_offset text p hp
    refine ⟨offset (pieces text) p, ⟨⟨by omega, by omega⟩, hback⟩, ?_⟩
    intro o ho
    obtain ⟨⟨hpos, hend⟩, rfl⟩ := ho
    exact (hinverse o hpos hend).2
  · intro a b ha hab hb
    obtain ⟨m, rfl⟩ := Int.eq_ofNat_of_zero_le ha
    obtain ⟨n, rfl⟩ := Int.eq_ofNat_of_zero_le (Int.le_trans ha (Int.le_of_lt hab))
    exact before_ofOffset (by omega) (by omega)
  · intro o ho
    have hzero : o.toNat = (0 : Int).toNat := by omega
    rw [ofOffset, hzero]
    rfl
  · intro o ho
    have hall : text.take o.toNat = text.take (text.length : Int).toNat := by
      rw [List.take_of_length_le (by omega), List.take_of_length_le (by omega)]
    rw [ofOffset, hall]
    rfl

/-- A text with an empty line: its first line break, the empty line, its end and the
largest 64-bit offset. -/
theorem ofOffset_bijective_empty_line :
    let text := Text.ascii "a\n\nbc"
    pieces text = [Text.ascii "a", [], Text.ascii "bc"] ∧
      ofOffset text 1 = ⟨1, 2⟩ ∧ 1 = (offset (pieces text) (ofOffset text 1) : Int) ∧
      (∃! o : Int, (0 ≤ o ∧ o ≤ text.length) ∧ ofOffset text o = ⟨2, 1⟩) ∧
      (ofOffset text 2).Before (ofOffset text 5) ∧
      ofOffset text (-1) = ofOffset text 0 ∧
      ofOffset text 9223372036854775807 = ofOffset text text.length := by
  intro text
  obtain ⟨hinverse, hunique, hbefore, hlow, hhigh⟩ := ofOffset_bijective text
  have hin : IsIn (pieces text) ⟨2, 1⟩ := ⟨by decide, by decide, by decide, by decide⟩
  refine ⟨by decide, by decide, (hinverse 1 (by decide) (by decide)).2, hunique _ hin,
    hbefore 2 5 (by decide) (by decide) (by decide), hlow (-1) (by decide), hhigh _ (by decide)⟩

end Position
end TapeC
