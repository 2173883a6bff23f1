import TapeC.Balance
import TapeC.CText

/-!
Indentation and nesting are one counter.

The C text keeps a depth while it writes its lines, and the bracket analysis keeps a
level while it looks for partners.  Byte by byte both move in the same way
(`Scan.level_step`), below zero as well as above, so the depth of every line is the
level of a beginning of the code.  Only the printed indentation stops at zero.
-/

namespace TapeC

/-! ## The two counters -/

namespace Scan

theorem level_step (s : Scan) (index : Nat) (b : UInt8) :
    (s.step index b).level = CText.depthAfter s.level b := by
  unfold step CText.depthAfter
  cases Instruction.ofByte? b with
  | none => rfl
  | some i =>
    cases i with
    | loopEnd =>
      -- the level goes down whether or not there is a loop to close
      cases s.opened <;> rfl
    | _ => rfl

theorem level_run (s : Scan) (index : Nat) (code : Text) :
    (s.run index code).level = code.foldl CText.depthAfter s.level := by
  induction code generalizing s index with
  | nil => rfl
  | cons b rest ih => rw [run, ih, level_step, List.foldl_cons]

end Scan

theorem Balance.level_ofCode (code : Text) :
    (ofCode code).level = code.foldl CText.depthAfter 1 := Scan.level_run _ 0 code

/-! ## The lines of a C text -/

namespace CText

theorem line_eq_spaces (depth : Int) (statement : Text) :
    line depth statement =
      Text.spaces (4 * max 0 depth).toNat ++ statement ++ [Byte.newline] := by
  have hwidth : 4 * depth.toNat = (4 * max 0 depth).toNat := by omega
  rw [line, hwidth]

/-- The beginning of a code whose level is the depth of the line of the byte `b` at
index `k`: a loop end is part of it and any other byte is not. -/
def beginning (code : Text) (k : Nat) (b : UInt8) : Text :=
  code.take (if b = Instruction.loopEnd.byte then k + 1 else k)

theorem depthOf_of_ne {b : UInt8} (h : b ≠ Instruction.loopEnd.byte) (depth : Int) :
    depthOf depth b = depth := by
  unfold depthOf
  split
  · next hb => exact absurd (Instruction.ofByte?_eq_some_iff.1 hb) h
  · rfl

theorem depthOf_eq_level (before rest : Text) (b : UInt8) :
    depthOf (before.foldl depthAfter 1) b =
      (Balance.ofCode (beginning (before ++ b :: rest) before.length b)).level := by
  rw [Balance.level_ofCode, beginning]
  by_cases hb : b = Instruction.loopEnd.byte
  · subst hb
    have htake : (before ++ Instruction.loopEnd.byte :: rest).take (before.length + 1) =
        before ++ [Instruction.loopEnd.byte] := List.take_length_add_append 1
    rw [if_pos rfl, htake, List.foldl_append]
    rfl
  · rw [if_neg hb, List.take_left, depthOf_of_ne hb]

/-- The induction is on the bytes still to be written; what was written before them
stays in the statement, since the level of a line is that of all bytes before it. -/
theorem lines_eq_flatMap (before rest : Text) :
    lines (before.foldl depthAfter 1) rest =
      (rest.zipIdx before.length).flatMap fun x =>
        line (Balance.ofCode (beginning (before ++ rest) x.2 x.1)).level (statementOf x.1) := by
  induction rest generalizing before with
  | nil => rfl
  | cons b rest ih =>
    have hnext := ih (before ++ [b])
    rw [List.foldl_append, List.length_append, List.append_assoc] at hnext
    rw [lines, List.zipIdx_cons, List.flatMap_cons, depthOf_eq_level before rest b]
    exact congrArg _ hnext

/-- A C text is what the buffer held, the prelude, the header of the entry function,
one line for each byte of the code, the return and the closing brace.  Every line is
indented by the level that the bracket analysis gives the beginning of the code which
ends there, four spaces a level and none below zero. -/
theorem appendTo_eq_lines_at_levels (buffer : Text) (p : Prelude) (code : Text) :
    appendTo buffer p code =
      buffer ++ p.text ++ [Byte.newline] ++
        (Text.ascii "int " ++ p.effective.entry ++ Text.ascii "(void) \x7b\n") ++
        (code.zipIdx.flatMap fun x =>
          Text.spaces (4 * max 0 (Balance.ofCode
            (code.take (if x.1 = Instruction.loopEnd.byte then x.2 + 1 else x.2))).level).toNat ++
          statementOf x.1 ++ [Byte.newline]) ++
        (Text.spaces (4 * max 0 (Balance.ofCode code).level).toNat ++
          Text.ascii "return 0;" ++ [Byte.newline]) ++
        Text.ascii "\x7d\n" := by
  have hlines : lines 1 code = _ := lines_eq_flatMap [] code
  have hreturn : code.foldl depthAfter 1 = (Balance.ofCode code).level :=
    (Balance.level_ofCode code).symm
  rw [appendTo, render, body, Prelude.header, hlines, hreturn]
  simp only [line_eq_spaces, beginning, List.nil_append, List.length_nil, List.append_assoc]

end CText
end TapeC
