import TapeC.Proofs.Block

/-!
Reading a program back from its C text.

The prelude is known in full once its defaults are filled in, so what stands before
the body of the entry function has a known length.  In the body every statement has a
line of its own, and the last two lines are the return and the brace of the function:
they are cut off by their place, which is why a stray loop end does no harm.  What is
left of the difference between two C texts is the number of cells, and digits end at
the bracket that follows them.
-/

namespace TapeC

/-! ## Preludes -/

namespace Prelude

theorem cells_effective_pos (p : Prelude) : 0 < p.effective.cells := by
  show 0 < if p.cells ≤ 0 then standard.cells else p.cells
  split
  · decide
  · omega

theorem effective_effective (p : Prelude) : p.effective.effective = p.effective := by
  have hcells : ¬ p.effective.cells ≤ 0 := by
    have := p.cells_effective_pos
    omega
  have htype : p.effective.cellType.isEmpty = false := by
    show (if p.cellType.isEmpty then standard.cellType else p.cellType).isEmpty = false
    cases p.cellType <;> rfl
  have hentry : p.effective.entry.isEmpty = false := by
    show (if p.entry.isEmpty then standard.entry else p.entry).isEmpty = false
    cases p.entry <;> rfl
  rw [effective, if_neg hcells, htype, hentry]
  rfl

theorem effective_eq_of_cells {p q : Prelude} (hcells : p.effective.cells = q.effective.cells)
    (htype : p.cellType = q.cellType) (hentry : p.entry = q.entry) :
    p.effective = q.effective := by
  unfold effective at hcells ⊢
  rw [htype, hentry]
  exact congrArg (Prelude.mk · _ _) hcells

/-- The size of the tape can be read off the declarations: a bracket ends it. -/
theorem cells_eq_of_declarations_append {p q : Prelude} {x y : Text}
    (htype : p.cellType = q.cellType) (hp : 0 < p.cells) (hq : 0 < q.cells)
    (h : p.declarations ++ x = q.declarations ++ y) : p.cells = q.cells := by
  obtain ⟨m, hm⟩ := Int.eq_ofNat_of_zero_le (Int.le_of_lt hp)
  obtain ⟨n, hn⟩ := Int.eq_ofNat_of_zero_le (Int.le_of_lt hq)
  simp only [declarations, htype, hm, hn, List.append_assoc] at h
  have hdigits := List.append_cancel_left (List.append_cancel_left (List.append_cancel_left h))
  have hmn : m = n := Decimal.natural_append_cons_inj (by decide) (by decide) hdigits
  rw [hm, hn, hmn]

end Prelude

/-! ## Statements -/

namespace Instruction

/-- The instruction that has the given statement. -/
def ofStatement? (t : Text) : Option Instruction := all.find? fun i => i.statement = t

theorem ofStatement?_statement (i : Instruction) : ofStatement? i.statement = some i := by
  cases i <;> decide

end Instruction

namespace CText

/-- What stands before the body of the entry function. -/
def opening (p : Prelude) : Text := p.text ++ [Byte.newline] ++ p.header

theorem opening_effective (p : Prelude) : opening p.effective = opening p := by
  rw [opening, Prelude.text, Prelude.header, p.effective_effective]
  rfl

/-- The instruction byte behind a line. -/
def readLine? (l : Text) : Option UInt8 := (Instruction.ofStatement? l).map Instruction.byte

theorem filterMap_readLine?_map {code : Text} (h : ∀ b ∈ code, isInstruction b = true) :
    (code.map statementOf).filterMap readLine? = code := by
  induction code with
  | nil => rfl
  | cons b code ih =>
    obtain ⟨i, rfl⟩ := exists_byte (h b List.mem_cons_self)
    have hread : readLine? (statementOf i.byte) = some i.byte := by
      rw [statementOf_byte, readLine?, Instruction.ofStatement?_statement]
      rfl
    rw [List.map_cons, List.filterMap_cons_some hread,
      ih fun c hc => h c (List.mem_cons_of_mem _ hc)]

/-- The code of a C text with the given prelude. -/
def decode (p : Prelude) (t : Text) : Text :=
  (unindented (t.drop (opening p).length)).dropLast.dropLast.filterMap readLine?

theorem decode_render {code : Text} (h : ∀ b ∈ code, isInstruction b = true) (p : Prelude) :
    decode p.effective (render p code) = code := by
  have hbody : (render p code).drop (opening p).length = body code := List.drop_left
  have hlines : (unindented (body code)).dropLast.dropLast = code.map statementOf := by
    rw [unindented_body h, List.append_cons, List.dropLast_concat, List.dropLast_concat]
  rw [decode, opening_effective, hbody, hlines, filterMap_readLine?_map h]

end CText

namespace Listing

theorem code_eq_declarations_append (p : Prelude) (text : Text) :
    (ofText p text).code = p.effective.declarations ++
      ([Byte.newline] ++ p.header ++ CText.body (Source.filtered text)) := by
  simp only [ofText, CText.render, Prelude.text, List.append_assoc]

/-- A C text says which program it was made from, in order or not, and how many cells
it has, and there is nothing more to it once the cell type and the entry are fixed. -/
theorem code_determines_filtered :
    (∀ (cellType entry : Text) (m n : Int) (a b : Text),
      (ofText ⟨m, cellType, entry⟩ a).code = (ofText ⟨n, cellType, entry⟩ b).code ↔
        (if m ≤ 0 then 30000 else m) = (if n ≤ 0 then 30000 else n) ∧
          (ofText ⟨m, cellType, entry⟩ a).filtered = (ofText ⟨n, cellType, entry⟩ b).filtered) ∧
    ∀ (p : Prelude) (text : Text),
      CText.decode p.effective (ofText p text).code = (ofText p text).filtered := by
  have hdecode : ∀ (p : Prelude) (text : Text),
      CText.decode p.effective (ofText p text).code = (ofText p text).filtered :=
    fun p text => CText.decode_render (isInstruction_filtered text) p
  refine ⟨?_, hdecode⟩
  intro cellType entry m n a b
  let p : Prelude := ⟨m, cellType, entry⟩
  let q : Prelude := ⟨n, cellType, entry⟩
  show (ofText p a).code = (ofText q b).code ↔
    p.effective.cells = q.effective.cells ∧ Source.filtered a = Source.filtered b
  constructor
  · intro h
    have hcells : p.effective.cells = q.effective.cells := by
      rw [code_eq_declarations_append, code_eq_declarations_append] at h
      exact Prelude.cells_eq_of_declarations_append rfl p.cells_effective_pos
        q.cells_effective_pos h
    refine ⟨hcells, ?_⟩
    calc Source.filtered a
        = CText.decode p.effective (ofText p a).code := (hdecode p a).symm
      _ = CText.decode q.effective (ofText q b).code := by
          rw [h, Prelude.effective_eq_of_cells hcells rfl rfl]
      _ = Source.filtered b := hdecode q b
  · rintro ⟨hcells, hfiltered⟩
    have hprelude := Prelude.effective_eq_of_cells hcells rfl rfl
    simp only [ofText, CText.render, Prelude.text, Prelude.header, hprelude, hfiltered]

end Listing
end TapeC
