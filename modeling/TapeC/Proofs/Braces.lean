import TapeC.Proofs.Concatenation
import TapeC.Proofs.Counter
import TapeC.Proofs.Decoding
import TapeC.Proofs.Diagnostics

/-!
The braces of a C text.

Every loop start opens a brace and every loop end closes one, between the brace that opens
the entry function and the one that closes it.  So the braces of a C text follow the
counter of its code from one on, as the analysis of the brackets does (`CText.holds_lines`).
But braces are balanced as long as the counter does not go below zero, and a code in order
does not go below one.  The difference is a single stray loop end, which closes the entry
function, before a single loop that stays open, which the brace of the entry function
closes.  All other codes that are not in order have unbalanced braces.
-/

namespace TapeC

namespace Byte

abbrev openBrace : UInt8 := 123
abbrev closeBrace : UInt8 := 125

end Byte

/-! ## Counting braces -/

namespace Braces

/-- No beginning of the text closes more braces than it opens, and the whole text closes
as many as it opens. -/
def Balanced (t : Text) : Prop :=
  (∀ a, a <+: t → a.count Byte.closeBrace ≤ a.count Byte.openBrace) ∧
    t.count Byte.closeBrace = t.count Byte.openBrace

/-- How many more braces a text opens than it closes. -/
def excess (t : Text) : Int := t.count Byte.openBrace - t.count Byte.closeBrace

/-- With `n` braces open before it, no beginning of the text closes one too many. -/
def Holds (n : Int) (t : Text) : Prop := ∀ a, a <+: t → 0 ≤ n + excess a

/-- The text has no brace. -/
def Plain (t : Text) : Prop := Byte.openBrace ∉ t ∧ Byte.closeBrace ∉ t

instance (t : Text) : Decidable (Plain t) := inferInstanceAs (Decidable (_ ∧ _))

@[simp] theorem excess_nil : excess [] = 0 := rfl

theorem excess_append (x y : Text) : excess (x ++ y) = excess x + excess y := by
  simp only [excess, List.count_append]
  omega

theorem Holds.nonneg {n : Int} {t : Text} (h : Holds n t) : 0 ≤ n := by
  simpa using h [] List.nil_prefix

theorem balanced_iff_holds (t : Text) : Balanced t ↔ Holds 0 t ∧ excess t = 0 := by
  unfold Balanced Holds excess
  refine and_congr (forall_congr' fun a => forall_congr' fun _ => ?_) ?_
  · omega
  · omega

theorem holds_append {n : Int} {x y : Text} :
    Holds n (x ++ y) ↔ Holds n x ∧ Holds (n + excess x) y := by
  constructor
  · intro h
    refine ⟨fun a ha => h a (ha.trans (List.prefix_append x y)), fun a ha => ?_⟩
    have hboth := h (x ++ a) ((List.prefix_append_right_inj x).2 ha)
    rw [excess_append] at hboth
    omega
  · intro h a ha
    obtain ⟨hx, hy⟩ := h
    rcases List.prefix_or_prefix_of_prefix ha (List.prefix_append x y) with hax | ⟨b, rfl⟩
    · exact hx a hax
    · have hb := hy b ((List.prefix_append_right_inj x).1 ha)
      rw [excess_append]
      omega

theorem Plain.of_prefix {a t : Text} (h : Plain t) (ha : a <+: t) : Plain a :=
  ⟨fun hmem => h.1 (ha.subset hmem), fun hmem => h.2 (ha.subset hmem)⟩

theorem Plain.excess_eq {t : Text} (h : Plain t) : excess t = 0 := by
  rw [excess, List.count_eq_zero_of_not_mem h.1, List.count_eq_zero_of_not_mem h.2]
  rfl

theorem Plain.holds_iff {t : Text} (h : Plain t) (n : Int) : Holds n t ↔ 0 ≤ n := by
  refine ⟨Holds.nonneg, fun hn a ha => ?_⟩
  rw [(h.of_prefix ha).excess_eq]
  omega

theorem holds_singleton (n : Int) (b : UInt8) :
    Holds n [b] ↔ 0 ≤ n ∧ 0 ≤ n + excess [b] := by
  constructor
  · intro h
    exact ⟨h.nonneg, h [b] (List.prefix_refl _)⟩
  · intro h a ha
    obtain ⟨hn, hb⟩ := h
    rcases List.prefix_cons_iff.1 ha with rfl | ⟨t, rfl, ht⟩
    · rw [excess_nil]
      omega
    · rw [List.prefix_nil.1 ht]
      exact hb

theorem holds_nil (n : Int) : Holds n [] ↔ 0 ≤ n :=
  Plain.holds_iff (by decide) n

theorem holds_cons (n : Int) (b : UInt8) (t : Text) :
    Holds n (b :: t) ↔ 0 ≤ n ∧ Holds (n + excess [b]) t := by
  rw [← List.singleton_append, holds_append, holds_singleton]
  constructor
  · intro h
    obtain ⟨⟨hn, _⟩, ht⟩ := h
    exact ⟨hn, ht⟩
  · intro h
    obtain ⟨hn, ht⟩ := h
    exact ⟨⟨hn, ht.nonneg⟩, ht⟩

/-- One pass decides, with the number of open braces at hand. -/
instance decidableHolds : (n : Int) → (t : Text) → Decidable (Holds n t)
  | n, [] => decidable_of_iff (0 ≤ n) (holds_nil n).symm
  | n, b :: t =>
    have := decidableHolds (n + excess [b]) t
    decidable_of_iff (0 ≤ n ∧ Holds (n + excess [b]) t) (holds_cons n b t).symm

instance (t : Text) : Decidable (Balanced t) :=
  decidable_of_iff (Holds 0 t ∧ excess t = 0) (balanced_iff_holds t).symm

end Braces

/-! ## The braces of the lines -/

namespace CText

open Braces

theorem plain_spaces (n : Nat) : Plain (Text.spaces n) := by
  have hspace : ∀ b ∈ Text.spaces n, b = Byte.space := fun b hb => List.eq_of_mem_replicate hb
  exact ⟨fun h => absurd (hspace _ h) (by decide), fun h => absurd (hspace _ h) (by decide)⟩

theorem plain_statementOf {b : UInt8} (h : ¬ IsBracket b) : Plain (statementOf b) := by
  unfold statementOf
  split
  · next i hi =>
    obtain rfl := Instruction.ofByte?_eq_some_iff.1 hi
    have hsimple := Instruction.isSimple_of_not_isBracket h
    revert hsimple
    cases i <;> decide
  · exact ⟨List.not_mem_nil, List.not_mem_nil⟩

/-- A statement opens and closes what its byte does. -/
theorem excess_statementOf (b : UInt8) : excess (statementOf b) = Counter.rise [b] := by
  by_cases hb : IsBracket b
  · rcases hb with rfl | rfl
    · decide
    · decide
  · rw [(plain_statementOf hb).excess_eq, Counter.rise_of_not_isBracket hb]

theorem holds_statementOf (n : Int) (b : UInt8) :
    Holds n (statementOf b) ↔ 0 ≤ n ∧ 0 ≤ n + Counter.rise [b] := by
  by_cases hb : IsBracket b
  · rcases hb with rfl | rfl
    · have hsplit : statementOf Instruction.loopStart.byte =
          Text.ascii "while(*p) " ++ [Byte.openBrace] := by decide
      have hwords : Plain (Text.ascii "while(*p) ") := by decide
      rw [hsplit, holds_append, hwords.holds_iff, hwords.excess_eq, holds_singleton,
        Int.add_zero, show excess [Byte.openBrace] = Counter.rise [Instruction.loopStart.byte] from rfl]
      exact and_iff_right_of_imp And.left
    · exact holds_singleton n Byte.closeBrace
  · rw [(plain_statementOf hb).holds_iff, Counter.rise_of_not_isBracket hb]
    omega

theorem excess_line (depth : Int) (t : Text) : excess (line depth t) = excess t := by
  have hnewline : excess [Byte.newline] = 0 := by decide
  rw [line, excess_append, excess_append, (plain_spaces _).excess_eq, hnewline]
  omega

theorem holds_line (n depth : Int) (t : Text) :
    Holds n (line depth t) ↔ Holds n t := by
  have hnewline : Plain [Byte.newline] := by decide
  rw [line, holds_append, holds_append, (plain_spaces _).holds_iff, excess_append,
    (plain_spaces _).excess_eq, hnewline.holds_iff, Int.add_zero, Int.zero_add]
  constructor
  · intro h
    obtain ⟨⟨_, ht⟩, _⟩ := h
    exact ht
  · intro ht
    exact ⟨⟨ht.nonneg, ht⟩, ht t (List.prefix_refl t)⟩

theorem excess_lines (depth : Int) (code : Text) :
    excess (lines depth code) = Counter.rise code := by
  induction code generalizing depth with
  | nil => rfl
  | cons b rest ih =>
    have hsplit : Counter.rise (b :: rest) = Counter.rise [b] + Counter.rise rest :=
      Counter.rise_append [b] rest
    rw [lines, excess_append, excess_line, excess_statementOf, ih, hsplit]

/-- The braces of the lines never run out just if the counter of the code does not. -/
theorem holds_lines (n depth : Int) (code : Text) :
    Holds n (lines depth code) ↔ ∀ a, a <+: code → 0 ≤ n + Counter.rise a := by
  induction code generalizing n depth with
  | nil =>
    refine forall_congr' fun a => forall_congr' fun ha => ?_
    rw [List.prefix_nil.1 ha]
    rfl
  | cons b rest ih =>
    have hsplit : ∀ a, Counter.rise (b :: a) = Counter.rise [b] + Counter.rise a :=
      Counter.rise_append [b]
    rw [lines, holds_append, holds_line, excess_line, excess_statementOf, holds_statementOf, ih]
    constructor
    · intro h a ha
      obtain ⟨⟨hn, _⟩, hrest⟩ := h
      rcases List.prefix_cons_iff.1 ha with rfl | ⟨t, rfl, ht⟩
      · show 0 ≤ n + 0
        omega
      · have := hrest t ht
        rw [hsplit]
        omega
    · intro h
      have hnil : 0 ≤ n + 0 := h [] List.nil_prefix
      have hhead := h [b] (List.prefix_append [b] rest)
      refine ⟨⟨by omega, hhead⟩, fun a ha => ?_⟩
      have := h (b :: a) (List.cons_prefix_cons.2 ⟨rfl, ha⟩)
      rw [hsplit] at this
      omega

/-- Before the body of the entry function, `main` opens and closes its brace and the entry
function opens its own. -/
theorem holds_opening_standard :
    Holds 0 (opening .standard) ∧ excess (opening .standard) = 1 := by
  have hmain : Balanced (Prelude.standard.text ++ [Byte.newline]) := by decide +kernel
  obtain ⟨hholds, hexcess⟩ := (balanced_iff_holds _).1 hmain
  have hheader : Prelude.standard.header =
      line 0 (Text.ascii "int turbobrain_main(void) " ++ [Byte.openBrace]) := by decide
  have hwords : Plain (Text.ascii "int turbobrain_main(void) ") := by decide
  have hbrace : excess [Byte.openBrace] = 1 := by decide
  have hentry : Holds 0 Prelude.standard.header ∧ excess Prelude.standard.header = 1 := by
    rw [hheader, holds_line, excess_line, holds_append, excess_append, hwords.holds_iff,
      hwords.excess_eq, holds_singleton, hbrace]
    decide
  refine ⟨holds_append.2 ⟨hholds, ?_⟩, ?_⟩
  · rw [hexcess]
    exact hentry.1
  · rw [opening, excess_append, hexcess, hentry.2]
    rfl

theorem excess_body (code : Text) : excess (body code) = Counter.rise code - 1 := by
  have hreturn : Plain (Text.ascii "return 0;") := by decide
  have hclose : excess (Text.ascii "\x7d\n") = -1 := by decide
  rw [body, excess_append, excess_append, excess_lines, excess_line, hreturn.excess_eq, hclose]
  omega

/-- The brace that ends the entry function asks for one more open brace than the lines
before it. -/
theorem holds_body_iff (n : Int) (code : Text) : Holds n (body code) ↔
    (∀ a, a <+: code → 0 ≤ n + Counter.rise a) ∧ 1 ≤ n + Counter.rise code := by
  have hreturn : Plain (Text.ascii "return 0;") := by decide
  have hbrace : Text.ascii "\x7d\n" = line 0 [Byte.closeBrace] := by decide
  have hclose : excess [Byte.closeBrace] = -1 := by decide
  rw [body, hbrace, holds_append, holds_append, excess_append, holds_lines, excess_lines, holds_line,
    excess_line, hreturn.holds_iff, hreturn.excess_eq, holds_line, holds_singleton, hclose]
  constructor
  · intro h
    obtain ⟨⟨hlines, _⟩, _, hend⟩ := h
    exact ⟨hlines, by omega⟩
  · intro h
    obtain ⟨hlines, hend⟩ := h
    exact ⟨⟨hlines, by omega⟩, by omega, by omega⟩

/-- The braces of a C text are balanced just if the counter of its code ends where it
starts and does not go below zero on the way. -/
theorem balanced_render_iff (code : Text) : Balanced (render .standard code) ↔
    (∀ a, a <+: code → 0 ≤ Counter.after a) ∧ Counter.after code = 1 := by
  obtain ⟨hopening, hone⟩ := holds_opening_standard
  have hsplit : render .standard code = opening .standard ++ body code := rfl
  simp only [Counter.after_eq]
  rw [balanced_iff_holds, hsplit, holds_append, excess_append, hone, excess_body, Int.zero_add,
    holds_body_iff]
  constructor
  · intro h
    obtain ⟨⟨_, hlines, _⟩, htotal⟩ := h
    exact ⟨hlines, by omega⟩
  · intro h
    obtain ⟨hlines, htotal⟩ := h
    exact ⟨⟨hopening, hlines, by omega⟩, by omega⟩

end CText

/-! ## Listings -/

namespace Listing

open Braces

theorem balanced_code_iff (text : Text) : Balanced (ofText .standard text).code ↔
    (Scan.start.run 0 text).opened.length = (Scan.start.run 0 text).strays.length ∧
      (Scan.start.run 0 text).strays.length ≤ 1 := by
  have hskeleton := Scan.skeleton_run (Source.filtered text)
  have hlevel := hskeleton.level_eq
  rw [hskeleton.level_eq_after] at hlevel
  rw [← Scan.reindex_offsetOf_run text]
  simp only [Scan.reindex, List.length_map]
  show Balanced (CText.render .standard (Source.filtered text)) ↔ _
  rw [CText.balanced_render_iff, hskeleton.le_after_iff, hlevel]
  omega

/-- The braces of a C text are balanced just if the brackets of the program are in order or
the only ones without a partner are a loop end and a loop start behind it.  For any other
program that is not in order some beginning of the C text closes too many braces, or the
whole does not close all. -/
theorem braces_balanced_iff (text : Text) :
    Balanced (ofText .standard text).code ↔
      (ofText .standard text).wellFormed = true ∨
        ∃ i j, (ofText .standard text).unmatched = [i, j] ∧
          text[i]? = some Instruction.loopEnd.byte ∧
          text[j]? = some Instruction.loopStart.byte := by
  have hskeleton := Scan.skeleton_run text
  rw [balanced_code_iff, ← unmatched_eq_nil_iff, unmatched_ofText]
  generalize Scan.start.run 0 text = s at hskeleton
  constructor
  · intro h
    obtain ⟨hopened, hstrays⟩ := h
    obtain ⟨hends, hstarts⟩ := hskeleton.getElem?_of_mem
    cases hs : s.strays with
    | nil =>
      rw [hs] at hopened
      left
      rw [Scan.leftover, hs, List.eq_nil_of_length_eq_zero hopened]
      rfl
    | cons i rest =>
      rw [hs, List.length_cons] at hopened hstrays
      obtain rfl : rest = [] := List.eq_nil_of_length_eq_zero (by omega)
      obtain ⟨j, hj⟩ := List.length_eq_one_iff.1 hopened
      right
      refine ⟨i, j, ?_, hends i ?_, hstarts j ?_⟩
      · rw [Scan.leftover, hs, hj]
        rfl
      · rw [hs]
        exact List.mem_singleton.2 rfl
      · rw [hj]
        exact List.mem_singleton.2 rfl
  · intro h
    rcases h with hnone | ⟨i, j, hboth, hi, hj⟩
    · rw [Scan.leftover, List.append_eq_nil_iff, List.reverse_eq_nil_iff,
        List.reverse_eq_nil_iff] at hnone
      rw [hnone.1, hnone.2]
      exact ⟨rfl, Nat.zero_le 1⟩
    · have hne : Instruction.loopStart.byte ≠ Instruction.loopEnd.byte := by decide
      obtain ⟨hopened, hstrays⟩ := hskeleton.countP_leftover
      rw [hboth] at hopened hstrays
      simp only [List.countP_cons, List.countP_nil, hi, hj, Option.some.injEq, hne, hne.symm,
        decide_true, decide_false, if_true, Bool.false_eq_true, if_false] at hopened hstrays
      omega

/-- The brackets of `][` have no partners, and their braces pair with those of the entry
function. -/
theorem balanced_braces_out_of_order :
    (ofText .standard (Text.ascii "][")).wellFormed = false ∧
      Balanced (ofText .standard (Text.ascii "][")).code := by
  decide +kernel

end Listing
end TapeC
