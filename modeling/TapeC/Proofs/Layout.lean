import Mathlib.Data.List.GetD
import TapeC.Proofs.Counter
import TapeC.Proofs.Decoding

/-!
The nesting of a program, read off the layout of its C text.

A line is written at the smaller of the two counts before and after its byte, so that a
loop start stands at the depth outside of its loop, and so does its end
(`CText.depthOf_eq_min`).  The text that is printed keeps this depth as long as it is not
below zero.  Hence the indentation of the lines says whether the brackets are in order
(`Nested.iff_depthAt`), and if they are, which of them belong together: the partner of a
loop start is on the next line that is not indented further (`Partners.depthAt_eq`).
-/

namespace TapeC

open Source

/-! ## The depth of a line -/

namespace CText

/-- The depth of line `k`: the smaller of the counts before and after its byte.  Past the
last byte, at the return, both are that of the whole code. -/
def depthAt (code : Text) (k : Nat) : Int :=
  min (Counter.after (code.take k)) (Counter.after (code.take (k + 1)))

theorem depthOf_eq_min (n : Int) (b : UInt8) : depthOf n b = min n (Counter.tick n b) := by
  by_cases hb : IsBracket b
  · rcases hb with rfl | rfl
    · show n = min n (n + 1)
      omega
    · show n - 1 = min n (n - 1)
      omega
  · have hend : b ≠ Instruction.loopEnd.byte := fun e => hb (Or.inr e)
    rw [depthOf_of_ne hend, Counter.tick_eq, Counter.rise_of_not_isBracket hb]
    omega

theorem depthAt_cut (before rest : Text) (b : UInt8) :
    depthAt (before ++ b :: rest) before.length = depthOf (Counter.after before) b := by
  have hnext : (before ++ b :: rest).take (before.length + 1) = before ++ [b] :=
    List.take_length_add_append 1
  rw [depthAt, List.take_left, hnext, depthOf_eq_min, Counter.after_append, Counter.tick_eq]

theorem depthAt_length (code : Text) : depthAt code code.length = Counter.after code := by
  rw [depthAt, List.take_length, List.take_of_length_le (Nat.le_succ _)]
  omega

end CText

theorem Nested.iff_depthAt (code : Text) : Nested (filtered code) ↔
    (∀ k < code.length, 1 ≤ CText.depthAt code k) ∧ CText.depthAt code code.length = 1 := by
  rw [Nested.iff_counter, CText.depthAt_length]
  refine and_congr_left fun _ => ?_
  constructor
  · intro h k _
    have hbefore := h _ (List.take_prefix k code)
    have hafter := h _ (List.take_prefix (k + 1) code)
    rw [CText.depthAt]
    omega
  · intro h a ha
    rw [List.prefix_iff_eq_take] at ha
    have hlength := congrArg List.length ha
    rw [List.length_take] at hlength
    -- a beginning that is not empty ends with the byte of a line
    cases hk : a.length with
    | zero =>
      rw [List.eq_nil_of_length_eq_zero hk]
      exact Int.le_refl 1
    | succ k =>
      have hline := h k (by omega)
      rw [CText.depthAt, ← hk, ← ha] at hline
      omega

/-- Partners are written at one depth, and all lines between them further in. -/
theorem Partners.depthAt_eq {code : Text} {i j : Nat} (h : Partners code i j) :
    CText.depthAt code i = Counter.after (code.take i) ∧
      CText.depthAt code j = Counter.after (code.take i) ∧
      ∀ k, i < k → k < j → Counter.after (code.take i) < CText.depthAt code k := by
  obtain ⟨a, x, b, rfl, rfl, rfl, hx⟩ := h.exists_cut
  have hrise := hx.after_eq_one
  rw [Counter.after_eq] at hrise
  have hinside : ∀ m ≤ x.length, Counter.after ((a ++ Instruction.loopStart.byte ::
      (x ++ Instruction.loopEnd.byte :: b)).take (a.length + (m + 1))) =
        Counter.after a + 1 + Counter.rise (x.take m) := by
    intro m hm
    rw [List.take_length_add_append, List.take_succ_cons, List.take_append_of_le_length hm,
      List.append_cons, Counter.after_append, Counter.after_append]
    rfl
  have hend : CText.depthAt (a ++ Instruction.loopStart.byte ::
      (x ++ Instruction.loopEnd.byte :: b)) (a.length + 1 + x.length) = Counter.after a := by
    have hcut := CText.depthAt_cut (a ++ Instruction.loopStart.byte :: x) b Instruction.loopEnd.byte
    rw [List.append_assoc, List.cons_append, List.length_append, List.length_cons] at hcut
    have hdepth : Counter.after (a ++ Instruction.loopStart.byte :: x) = Counter.after a + 1 := by
      rw [List.append_cons, Counter.after_append, Counter.after_append]
      show Counter.after a + 1 + Counter.rise x = _
      omega
    rw [Nat.add_assoc, Nat.add_comm 1, hcut, hdepth]
    show Counter.after a + 1 - 1 = _
    omega
  rw [List.take_left]
  refine ⟨CText.depthAt_cut _ _ _, hend, ?_⟩
  intro k hik hkj
  obtain ⟨m, rfl⟩ : ∃ m, k = a.length + (m + 1) := ⟨k - a.length - 1, by omega⟩
  have hthis := hx.one_le_after (List.take_prefix m x)
  have hnext := hx.one_le_after (List.take_prefix (m + 1) x)
  rw [Counter.after_eq] at hthis hnext
  rw [CText.depthAt, Nat.add_assoc, hinside m (by omega), hinside (m + 1) (by omega)]
  omega

/-! ## The lines of the entry function -/

namespace CText

/-- The number of spaces that a line starts with. -/
def indentation (l : Text) : Nat := (l.takeWhile (· == Byte.space)).length

/-- The lines of the entry function behind its header, in a C text with the given
prelude. -/
def entryLines (p : Prelude) (t : Text) : List Text :=
  (t.drop (opening p).length).splitOn Byte.newline

theorem indentation_spaces {t : Text} (h : Bare t) (n : Nat) :
    indentation (Text.spaces n ++ t) = n := by
  have hnone : t.takeWhile (· == Byte.space) = [] := by
    cases t with
    | nil => rfl
    | cons b t =>
      have hb : ¬ (b == Byte.space) = true :=
        fun e => h.no_indent (congrArg some (beq_iff_eq.1 e))
      exact List.takeWhile_cons_of_neg hb
  rw [indentation, Text.spaces, List.takeWhile_append_of_pos (by simp), hnone, List.append_nil,
    List.length_replicate]

theorem newline_not_mem_statementOf (b : UInt8) : Byte.newline ∉ statementOf b := by
  unfold statementOf
  split
  · next i _ => exact (bare_statement i).no_newline
  · exact List.not_mem_nil

/-- The line of each byte of a code. -/
def instructionLines (code : Text) : List Text :=
  code.zipIdx.map fun x => Text.spaces (4 * (depthAt code x.2).toNat) ++ statementOf x.1

/-- The induction is on the bytes still to be written, and the depth of a line is that of
all bytes up to it. -/
theorem splitOn_lines (before rest tail : Text) :
    (lines (Counter.after before) rest ++ tail).splitOn Byte.newline =
      ((rest.zipIdx before.length).map fun x =>
        Text.spaces (4 * (depthAt (before ++ rest) x.2).toNat) ++ statementOf x.1) ++
        tail.splitOn Byte.newline := by
  induction rest generalizing before with
  | nil => rfl
  | cons b rest ih =>
    have hafter : depthAfter (Counter.after before) b = Counter.after (before ++ [b]) := by
      rw [Counter.depthAfter_eq_tick, Counter.after_append, Counter.tick_eq]
    have hrest := ih (before ++ [b])
    rw [List.append_assoc, List.singleton_append, List.length_append, List.length_singleton]
      at hrest
    rw [lines, List.append_assoc, splitOn_line (newline_not_mem_statementOf b), hafter, hrest,
      List.zipIdx_cons, List.map_cons, depthAt_cut]
    rfl

theorem entryLines_render (p : Prelude) (code : Text) :
    entryLines p (render p code) = instructionLines code ++
      [Text.spaces (4 * (depthAt code code.length).toNat) ++ Text.ascii "return 0;",
        Text.ascii "\x7d", []] := by
  have hbody : (render p code).drop (opening p).length = body code := List.drop_left
  have hdepth : code.foldl depthAfter 1 = depthAt code code.length := by
    rw [depthAt_length, Counter.depthAfter_eq_tick]
    rfl
  have hbrace : (Text.ascii "\x7d\n").splitOn Byte.newline = [Text.ascii "\x7d", []] := by decide
  have hlines := splitOn_lines [] code
    (line (code.foldl depthAfter 1) (Text.ascii "return 0;") ++ Text.ascii "\x7d\n")
  rw [splitOn_line bare_return.no_newline, hbrace, hdepth] at hlines
  rw [entryLines, hbody, body, List.append_assoc, hdepth]
  exact hlines

/-- What stands on the lines: the statements of the instructions, the return and the
closing brace. -/
theorem map_dropWhile_entryLines {code : Text} (h : ∀ b ∈ code, isInstruction b = true)
    (p : Prelude) :
    (entryLines p (render p code)).map (List.dropWhile (· == Byte.space)) =
      code.map statementOf ++ [Text.ascii "return 0;", Text.ascii "\x7d", []] := by
  have hcode : (instructionLines code).map (List.dropWhile (· == Byte.space)) =
      code.map statementOf := by
    rw [instructionLines, List.map_map]
    conv_rhs => rw [← List.zipIdx_map_fst 0 code, List.map_map]
    apply List.map_congr_left
    intro x hx
    obtain ⟨i, hi⟩ := exists_byte (h x.1 (List.fst_mem_of_mem_zipIdx hx))
    show (_ ++ statementOf x.1).dropWhile _ = statementOf x.1
    rw [hi, statementOf_byte]
    exact dropWhile_indent (bare_statement i) _
  have hreturn := dropWhile_indent bare_return (4 * (depthAt code code.length).toNat)
  rw [entryLines_render, List.map_append, hcode, List.map_cons, hreturn]
  rfl

theorem indentation_entryLines {code : Text} (h : ∀ b ∈ code, isInstruction b = true)
    (p : Prelude) {k : Nat} (hk : k ≤ code.length) :
    indentation ((entryLines p (render p code)).getD k []) = 4 * (depthAt code k).toNat := by
  have hlength : (instructionLines code).length = code.length := by
    rw [instructionLines, List.length_map, List.length_zipIdx]
  rw [entryLines_render]
  rcases Nat.lt_or_eq_of_le hk with hlt | rfl
  · obtain ⟨i, hi⟩ := exists_byte (h _ (List.getElem_mem hlt))
    rw [List.getD_append _ _ _ _ (by omega), List.getD_eq_getElem _ _ (by omega)]
    simp only [instructionLines, List.getElem_map, List.getElem_zipIdx, Nat.zero_add, hi,
      statementOf_byte]
    exact indentation_spaces (bare_statement i) _
  · rw [List.getD_append_right _ _ _ _ (by omega), hlength, Nat.sub_self]
    exact indentation_spaces bare_return _

end CText

/-! ## Reading the layout -/

/-- Two lines are indented alike, and all lines between them further. -/
structure Frames (indent : Nat → Nat) (i j : Nat) : Prop where
  lt : i < j
  alike : indent j = indent i
  further : ∀ k, i < k → k < j → indent i < indent k

namespace Frames

variable {indent : Nat → Nat} {i j k : Nat}

theorem right_unique (hj : Frames indent i j) (hk : Frames indent i k) : j = k := by
  rcases Nat.lt_trichotomy j k with hlt | heq | hgt
  · have := hk.further j hj.lt hlt
    have := hj.alike
    omega
  · exact heq
  · have := hj.further k hk.lt hgt
    have := hk.alike
    omega

theorem left_unique (hi : Frames indent i k) (hj : Frames indent j k) : i = j := by
  have := hi.alike
  have := hj.alike
  rcases Nat.lt_trichotomy i j with hlt | heq | hgt
  · have := hi.further j hlt hj.lt
    omega
  · exact heq
  · have := hj.further i hgt hi.lt
    omega

end Frames

namespace Listing

/-- How far line `k` of the entry function of a listing is indented. -/
def indentAt (p : Prelude) (text : Text) (k : Nat) : Nat :=
  CText.indentation ((CText.entryLines p (ofText p text).code).getD k [])

theorem indentAt_eq (p : Prelude) (text : Text) {k : Nat} (hk : k ≤ (Source.filtered text).length) :
    indentAt p text k = 4 * (CText.depthAt (Source.filtered text) k).toNat :=
  CText.indentation_entryLines (isInstruction_filtered text) p hk

theorem frames_of_partners {p : Prelude} {text : Text} {i j : Nat}
    (hnested : Nested (Source.filtered text)) (h : Partners (Source.filtered text) i j) :
    Frames (indentAt p text) i j := by
  obtain ⟨hi, hj, hbetween⟩ := h.depthAt_eq
  have hlength : j < (Source.filtered text).length := (List.getElem?_eq_some_iff.1 h.closes).1
  rw [← filtered_filtered] at hnested
  have hdepth := hnested.one_le_after (List.take_prefix i (Source.filtered text))
  have hlt := h.lt
  refine ⟨hlt, ?_, ?_⟩
  · rw [indentAt_eq p text (by omega), indentAt_eq p text (by omega), hi, hj]
  · intro k hik hkj
    have hk := hbetween k hik hkj
    rw [indentAt_eq p text (by omega), indentAt_eq p text (by omega), hi]
    omega

theorem partners_of_frames {p : Prelude} {text : Text} {i j : Nat}
    (hnested : Nested (Source.filtered text)) (hframes : Frames (indentAt p text) i j)
    (hbracket : (Source.filtered text)[i]? = some Instruction.loopStart.byte ∨
      (Source.filtered text)[j]? = some Instruction.loopEnd.byte) :
    Partners (Source.filtered text) i j := by
  have hpartner := HasPartner.of_nested (by rwa [filtered_filtered])
  have hne : Instruction.loopStart.byte ≠ Instruction.loopEnd.byte := by decide
  rcases hbracket with hstart | hend
  · obtain ⟨q, hq | hq⟩ := hpartner i _ hstart (Or.inl rfl)
    · rwa [hframes.right_unique (frames_of_partners hnested hq)]
    · exact absurd (Option.some.inj (hstart.symm.trans hq.closes)) hne
  · obtain ⟨q, hq | hq⟩ := hpartner j _ hend (Or.inr rfl)
    · exact absurd (Option.some.inj (hq.opens.symm.trans hend)) hne
    · rwa [hframes.left_unique (frames_of_partners hnested hq)]

/-- Behind the prelude and its header the entry function has a line for each instruction,
then the return and the closing brace.  The brackets of a text are in order just if every
instruction is indented by four spaces or more and the return by four.  If they are, the
lines of partners are indented alike and all lines between them further, and from a loop
start down or a loop end up no other line is placed like this. -/
theorem indentation_shows_nesting (p : Prelude) (text : Text) :
    p.text ++ [Byte.newline] ++
      (Text.ascii "int " ++ p.effective.entry ++ Text.ascii "(void) \x7b\n") <+:
        (ofText p text).code ∧
    (CText.entryLines p (ofText p text).code).map (List.dropWhile (· == Byte.space)) =
      (ofText p text).filtered.map statementOf ++
        [Text.ascii "return 0;", Text.ascii "\x7d", []] ∧
    ((ofText p text).wellFormed = true ↔
      (∀ k < (ofText p text).filtered.length, 4 ≤ indentAt p text k) ∧
        indentAt p text (ofText p text).filtered.length = 4) ∧
    ((ofText p text).wellFormed = true → ∀ i j : Nat,
      (Partners (ofText p text).filtered i j → Frames (indentAt p text) i j) ∧
      ((ofText p text).filtered[i]? = some Instruction.loopStart.byte ∨
          (ofText p text).filtered[j]? = some Instruction.loopEnd.byte →
        Frames (indentAt p text) i j → Partners (ofText p text).filtered i j)) := by
  have hnested := wellFormed_iff_nested p text
  refine ⟨List.prefix_append _ _, CText.map_dropWhile_entryLines (isInstruction_filtered text) p,
    ?_, ?_⟩
  · have hdepth := Nested.iff_depthAt (Source.filtered text)
    rw [filtered_filtered] at hdepth
    rw [hnested, hdepth]
    show _ ↔ (∀ k < (Source.filtered text).length, 4 ≤ indentAt p text k) ∧
      indentAt p text (Source.filtered text).length = 4
    rw [indentAt_eq p text (Nat.le_refl _)]
    refine and_congr ?_ (by omega)
    refine forall_congr' fun k => forall_congr' fun hk => ?_
    rw [indentAt_eq p text (Nat.le_of_lt hk)]
    omega
  · intro hgood i j
    exact ⟨frames_of_partners (hnested.1 hgood),
      fun hbracket hframes => partners_of_frames (hnested.1 hgood) hframes hbracket⟩

/-- A loop inside of a loop: the outer brackets stand alike because they are partners, and
the inner ones are partners because they stand alike. -/
theorem indentation_shows_nesting_inner :
    let text := Text.ascii "+[> [-] <]"
    let indent := indentAt .standard text
    (ofText .standard text).wellFormed = true ∧
      (4 ≤ indent 4 ∧ indent 8 = 4) ∧
      Partners (ofText .standard text).filtered 1 7 ∧ Frames indent 1 7 ∧
      Frames indent 3 5 ∧ Partners (ofText .standard text).filtered 3 5 := by
  intro text indent
  obtain ⟨_, _, hiff, hpairs⟩ := indentation_shows_nesting .standard text
  have hgood : (ofText .standard text).wellFormed = true := by decide
  obtain ⟨hlines, hreturn⟩ := hiff.1 hgood
  have houter : Partners (ofText .standard text).filtered 1 7 :=
    ⟨by decide, by decide, by decide, (Balance.inOrder_iff_nested _).1 (by decide)⟩
  have hinner : Frames indent 3 5 := by
    refine ⟨by decide, by decide +kernel, fun k hlow hhigh => ?_⟩
    obtain rfl : k = 4 := by omega
    decide +kernel
  exact ⟨hgood, ⟨hlines 4 (by decide), hreturn⟩, houter, (hpairs hgood 1 7).1 houter, hinner,
    (hpairs hgood 3 5).2 (Or.inl (by decide)) hinner⟩

end Listing
end TapeC
