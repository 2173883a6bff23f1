import TapeC.Block
import TapeC.CText

/-!
The lines of a C text, read back.

Without its indentation the body of the entry function is one statement a line, the
return and the closing brace (`CText.unindented_body`).  The line breaks can go as
well: no statement is the beginning of another, so a text of statements that follow
each other directly comes from one code only (`CText.flatMap_statementOf_inj`).
-/

namespace TapeC

/-! ## Lines without indentation -/

namespace CText

/-- A line that is not lost or cut when indentation and empty lines are dropped. -/
structure Bare (t : Text) : Prop where
  ne_nil : t ≠ []
  no_newline : Byte.newline ∉ t
  no_indent : t.head? ≠ some Byte.space

theorem bare_statement (i : Instruction) : Bare i.statement := by
  cases i <;> exact ⟨by decide, by decide, by decide⟩

theorem bare_return : Bare (Text.ascii "return 0;") := ⟨by decide, by decide, by decide⟩

theorem dropWhile_indent {t : Text} (h : Bare t) (n : Nat) :
    (Text.spaces n ++ t).dropWhile (· == Byte.space) = t := by
  rw [Text.spaces, List.dropWhile_append_of_pos (by simp)]
  cases t with
  | nil => rfl
  | cons b t =>
    have hb : ¬ (b == Byte.space) = true := fun e => h.no_indent (congrArg some (beq_iff_eq.1 e))
    exact List.dropWhile_cons_of_neg hb

theorem splitOn_line {t : Text} (h : Byte.newline ∉ t) (depth : Int) (rest : Text) :
    (line depth t ++ rest).splitOn Byte.newline =
      (Text.spaces (4 * depth.toNat) ++ t) :: rest.splitOn Byte.newline := by
  have hno : Byte.newline ∉ Text.spaces (4 * depth.toNat) ++ t := by
    intro hmem
    rcases List.mem_append.1 hmem with hmem | hmem
    · exact absurd (List.eq_of_mem_replicate hmem) (by decide)
    · exact h hmem
  rw [line, List.append_assoc, List.singleton_append]
  exact List.splitOn_append_cons_self_of_not_mem hno rest

theorem unindented_line {t : Text} (h : Bare t) (depth : Int) (rest : Text) :
    unindented (line depth t ++ rest) = t :: unindented rest := by
  have hkeep : (!t.isEmpty) = true := by
    rw [Bool.not_eq_true', List.isEmpty_eq_false_iff]
    exact h.ne_nil
  rw [unindented, splitOn_line h.no_newline, List.map_cons, dropWhile_indent h, List.filter_cons,
    if_pos hkeep]
  rfl

theorem statementOf_byte (i : Instruction) : statementOf i.byte = i.statement := by
  rw [statementOf, Instruction.ofByte?_byte]

theorem exists_byte {b : UInt8} (h : isInstruction b = true) : ∃ i : Instruction, b = i.byte := by
  obtain ⟨i, hi⟩ := Option.isSome_iff_exists.1 h
  exact ⟨i, Instruction.ofByte?_eq_some_iff.1 hi⟩

theorem unindented_lines {code : Text} (h : ∀ b ∈ code, isInstruction b = true) (depth : Int)
    (rest : Text) :
    unindented (lines depth code ++ rest) = code.map statementOf ++ unindented rest := by
  induction code generalizing depth with
  | nil => rfl
  | cons b code ih =>
    obtain ⟨i, rfl⟩ := exists_byte (h b List.mem_cons_self)
    rw [lines, List.append_assoc, List.map_cons, statementOf_byte,
      unindented_line (bare_statement i), ih fun c hc => h c (List.mem_cons_of_mem _ hc)]
    rfl

theorem unindented_body {code : Text} (h : ∀ b ∈ code, isInstruction b = true) :
    unindented (body code) =
      code.map statementOf ++ [Text.ascii "return 0;", Text.ascii "\x7d"] := by
  have hbrace : unindented (Text.ascii "\x7d\n") = [Text.ascii "\x7d"] := by decide
  rw [body, List.append_assoc, unindented_lines h, unindented_line bare_return, hbrace]

/-- A C text without indentation and line breaks. -/
def compact (t : Text) : Text := (unindented t).flatten

theorem compact_body {code : Text} (h : ∀ b ∈ code, isInstruction b = true) :
    compact (body code) =
      code.flatMap statementOf ++ Text.ascii "return 0;" ++ Text.ascii "\x7d" := by
  rw [compact, unindented_body h, List.flatten_append, List.append_assoc]
  rfl

/-! ## Statements that follow each other directly -/

/-- No statement is the beginning of another. -/
theorem eq_of_prefix_statement {i j : Instruction} (h : i.statement <+: j.statement) : i = j := by
  revert h
  cases i <;> cases j <;> decide

theorem statement_append_inj {i j : Instruction} {x y : Text}
    (h : i.statement ++ x = j.statement ++ y) : i = j ∧ x = y := by
  have hij : i = j := by
    rcases List.prefix_or_prefix_of_prefix (List.prefix_append i.statement x)
      (h ▸ List.prefix_append j.statement y) with hpre | hpre
    · exact eq_of_prefix_statement hpre
    · exact (eq_of_prefix_statement hpre).symm
  subst hij
  exact ⟨rfl, List.append_cancel_left h⟩

theorem flatMap_statementOf_inj {c d : Text} (hc : ∀ b ∈ c, isInstruction b = true)
    (hd : ∀ b ∈ d, isInstruction b = true)
    (h : c.flatMap statementOf = d.flatMap statementOf) : c = d := by
  induction c generalizing d with
  | nil =>
    cases d with
    | nil => rfl
    | cons b d =>
      obtain ⟨i, rfl⟩ := exists_byte (hd b List.mem_cons_self)
      rw [List.flatMap_cons, statementOf_byte] at h
      exact absurd (List.append_eq_nil_iff.1 h.symm).1 (bare_statement i).ne_nil
  | cons a c ih =>
    obtain ⟨i, rfl⟩ := exists_byte (hc a List.mem_cons_self)
    cases d with
    | nil =>
      rw [List.flatMap_cons, statementOf_byte] at h
      exact absurd (List.append_eq_nil_iff.1 h).1 (bare_statement i).ne_nil
    | cons b d =>
      obtain ⟨j, rfl⟩ := exists_byte (hd b List.mem_cons_self)
      rw [List.flatMap_cons, List.flatMap_cons, statementOf_byte, statementOf_byte] at h
      obtain ⟨rfl, hrest⟩ := statement_append_inj h
      rw [ih (fun b hb => hc b (List.mem_cons_of_mem _ hb))
        (fun b hb => hd b (List.mem_cons_of_mem _ hb)) hrest]

end CText
end TapeC
