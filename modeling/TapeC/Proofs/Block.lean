import TapeC.Listing
import TapeC.Proofs.Partners
import TapeC.Proofs.Statements

/-!
Blocks and the grammar of the entry function.

A proper block and a nested code are one thing written in two ways: `Block.code`
goes from the one to the other, and it is injective because a bracket has one
partner only.  The statements of a block are those of its code, so the body of an
entry function reads as a block just when its code is nested, and then as one block
only (`Block.reads_body_iff`).
-/

namespace TapeC

open Source

namespace Block

/-- The code that has the statements of a block. -/
def code : Block → Text
  | done => []
  | simple i rest => i.byte :: rest.code
  | loop inner rest =>
    Instruction.loopStart.byte :: (inner.code ++ Instruction.loopEnd.byte :: rest.code)

theorem nested_code {b : Block} (h : b.Proper) : Nested b.code := by
  induction b with
  | done => exact .nil
  | simple i rest ih => exact .simple h.1 (ih h.2)
  | loop inner rest ihin ihrest => exact .loop (ihin h.1) (ihrest h.2)

theorem exists_code_eq {code : Text} (h : Nested code) : ∃ b : Block, b.Proper ∧ b.code = code := by
  induction h with
  | nil => exact ⟨done, trivial, rfl⟩
  | @simple i rest hi _ ih =>
    obtain ⟨b, hb, rfl⟩ := ih
    exact ⟨simple i b, ⟨hi, hb⟩, rfl⟩
  | loop _ _ ihin ihrest =>
    obtain ⟨a, ha, rfl⟩ := ihin
    obtain ⟨b, hb, rfl⟩ := ihrest
    exact ⟨loop a b, ⟨ha, hb⟩, rfl⟩

/-- The partner of a loop start is the end of its block. -/
theorem partners_code {inner : Block} (h : inner.Proper) (before rest : Text) :
    Partners
      (before ++ Instruction.loopStart.byte :: (inner.code ++ Instruction.loopEnd.byte :: rest))
      before.length (before.length + 1 + inner.code.length) := by
  have hnested := nested_code h
  rw [← hnested.filtered_eq] at hnested
  exact Partners.cut hnested before rest

theorem code_injective {a b : Block} (ha : a.Proper) (hb : b.Proper) (h : a.code = b.code) :
    a = b := by
  induction a generalizing b with
  | done =>
    cases b with
    | done => rfl
    | simple _ _ => exact absurd h (List.cons_ne_nil _ _).symm
    | loop _ _ => exact absurd h (List.cons_ne_nil _ _).symm
  | simple i rest ih =>
    cases b with
    | done => exact absurd h (List.cons_ne_nil _ _)
    | simple j rest' =>
      rw [code, code, List.cons.injEq] at h
      rw [Instruction.byte_injective h.1, ih ha.2 hb.2 h.2]
    | loop _ _ =>
      rw [code, code, List.cons.injEq] at h
      exact absurd (Or.inl h.1) (Instruction.not_isBracket_of_isSimple ha.1)
  | loop inner rest ihin ihrest =>
    cases b with
    | done => exact absurd h (List.cons_ne_nil _ _)
    | simple _ _ =>
      rw [code, code, List.cons.injEq] at h
      exact absurd (Or.inl h.1.symm) (Instruction.not_isBracket_of_isSimple hb.1)
    | loop inner' rest' =>
      -- both insides end at the partner of the loop start
      have hend := partners_code ha.1 [] rest.code
      have hend' := partners_code hb.1 [] rest'.code
      rw [List.nil_append] at hend hend'
      rw [code, code] at h
      rw [← h] at hend'
      have hlen : inner.code.length = inner'.code.length := by
        have := hend.right_unique hend'
        omega
      obtain ⟨hinner, hrest⟩ := List.append_inj (List.cons.inj h).2 hlen
      rw [ihin ha.1 hb.1 hinner, ihrest ha.2 hb.2 (List.cons.inj hrest).2]

theorem statements_eq_map (b : Block) : b.statements = b.code.map statementOf := by
  induction b with
  | done => rfl
  | simple i rest ih => rw [statements, code, List.map_cons, CText.statementOf_byte, ih]
  | loop inner rest ihin ihrest =>
    rw [statements, code, List.map_cons, List.map_append, List.map_cons, CText.statementOf_byte,
      CText.statementOf_byte, ihin, ihrest]
    rfl

/-- A text reads as a block: indentation and line breaks apart, it is the statements
of the block, the return and the closing brace. -/
def Reads (b : Block) (t : Text) : Prop :=
  b.Proper ∧
    CText.compact t = b.statements.flatten ++ Text.ascii "return 0;" ++ Text.ascii "\x7d"

/-- The body of an entry function reads as the block of its code and no other. -/
theorem reads_body_iff {b : Block} {code : Text} (h : ∀ c ∈ code, isInstruction c = true) :
    b.Reads (CText.body code) ↔ b.Proper ∧ b.code = code := by
  rw [Reads, CText.compact_body h, statements_eq_map, ← List.flatMap_def]
  constructor
  · intro h'
    obtain ⟨hb, heq⟩ := h'
    have hflat := List.append_cancel_right (List.append_cancel_right heq)
    have hinstr : ∀ c ∈ b.code, isInstruction c = true :=
      List.filter_eq_self.1 (nested_code hb).filtered_eq
    exact ⟨hb, (CText.flatMap_statementOf_inj h hinstr hflat).symm⟩
  · intro h'
    obtain ⟨hb, rfl⟩ := h'
    exact ⟨hb, rfl⟩

end Block

/-! ## The grammar of the entry function -/

namespace CText

/-- The statements outside of which there are only loops. -/
def simpleStatements : List Text :=
  [Text.ascii "++p;", Text.ascii "--p;", Text.ascii "++*p;", Text.ascii "--*p;",
    Text.ascii "printf(\"%c\", *p);", Text.ascii "scanf(\"%c\", p);"]

/-- Simple statements and `while` blocks, one after the other. -/
inductive StatementList : Text → Prop where
  | nil : StatementList []
  | simple {t rest : Text} : t ∈ simpleStatements → StatementList rest → StatementList (t ++ rest)
  | loop {inner rest : Text} : StatementList inner → StatementList rest →
      StatementList (Text.ascii "while(*p) \x7b" ++ inner ++ Text.ascii "\x7d" ++ rest)

/-- What follows the header of an entry function: statements, the return and the
closing brace. -/
inductive EntryBody : Text → Prop where
  | mk {t : Text} : StatementList t →
      EntryBody (t ++ Text.ascii "return 0;" ++ Text.ascii "\x7d")

theorem mem_simpleStatements_iff {t : Text} :
    t ∈ simpleStatements ↔ ∃ i : Instruction, i.isSimple ∧ i.statement = t := by
  constructor
  · intro h
    simp only [simpleStatements, List.mem_cons, List.not_mem_nil, or_false] at h
    rcases h with rfl | rfl | rfl | rfl | rfl | rfl
    · exact ⟨.right, rfl, rfl⟩
    · exact ⟨.left, rfl, rfl⟩
    · exact ⟨.increment, rfl, rfl⟩
    · exact ⟨.decrement, rfl, rfl⟩
    · exact ⟨.output, rfl, rfl⟩
    · exact ⟨.input, rfl, rfl⟩
  · intro h
    obtain ⟨i, hi, rfl⟩ := h
    revert hi
    cases i <;> decide

theorem statementList_iff {t : Text} :
    StatementList t ↔ ∃ b : Block, b.Proper ∧ b.statements.flatten = t := by
  constructor
  · intro h
    induction h with
    | nil => exact ⟨.done, trivial, rfl⟩
    | simple ht _ ih =>
      obtain ⟨i, hi, rfl⟩ := mem_simpleStatements_iff.1 ht
      obtain ⟨b, hb, rfl⟩ := ih
      exact ⟨.simple i b, ⟨hi, hb⟩, List.flatten_cons⟩
    | loop _ _ ihin ihrest =>
      obtain ⟨a, ha, rfl⟩ := ihin
      obtain ⟨b, hb, rfl⟩ := ihrest
      refine ⟨.loop a b, ⟨ha, hb⟩, ?_⟩
      rw [Block.statements, List.cons_append, List.flatten_cons, List.flatten_append,
        List.flatten_cons, List.append_assoc, List.append_assoc]
  · intro h
    obtain ⟨b, hb, rfl⟩ := h
    induction b with
    | done => exact .nil
    | simple i rest ih => exact .simple (mem_simpleStatements_iff.2 ⟨i, hb.1, rfl⟩) (ih hb.2)
    | loop inner rest ihin ihrest =>
      have := StatementList.loop (ihin hb.1) (ihrest hb.2)
      rw [List.append_assoc, List.append_assoc] at this
      rw [Block.statements, List.cons_append, List.flatten_cons, List.flatten_append,
        List.flatten_cons]
      exact this

theorem entryBody_compact_iff {t : Text} : EntryBody (compact t) ↔ ∃ b : Block, b.Reads t := by
  constructor
  · intro h
    generalize hwhole : compact t = whole at h
    obtain ⟨hlist⟩ := h
    obtain ⟨b, hb, rfl⟩ := statementList_iff.1 hlist
    exact ⟨b, hb, hwhole⟩
  · intro h
    obtain ⟨b, hb, hwhole⟩ := h
    rw [hwhole]
    exact .mk (statementList_iff.2 ⟨b, hb, rfl⟩)

end CText

namespace Listing

theorem wellFormed_iff_nested (p : Prelude) (text : Text) :
    (ofText p text).wellFormed ↔ Nested (Source.filtered text) := by
  have := Balance.inOrder_iff_nested (Source.filtered text)
  rwa [filtered_filtered] at this

theorem isInstruction_filtered (text : Text) :
    ∀ b ∈ Source.filtered text, isInstruction b = true :=
  fun _ hb => (List.mem_filter.1 hb).2

/-- The gate is exact: what follows the header of the entry function is a body of
the grammar, indentation and line breaks apart, just when the brackets are in
order. -/
theorem entryBody_iff_wellFormed (p : Prelude) (text : Text) :
    ∃ t, (ofText p text).code = p.text ++ [Byte.newline] ++
        (Text.ascii "int " ++ p.effective.entry ++ Text.ascii "(void) \x7b\n") ++ t ∧
      (CText.EntryBody (CText.compact t) ↔ (ofText p text).wellFormed) := by
  refine ⟨CText.body (Source.filtered text), rfl, ?_⟩
  rw [CText.entryBody_compact_iff, wellFormed_iff_nested]
  constructor
  · intro h
    obtain ⟨b, hreads⟩ := h
    obtain ⟨hb, hcode⟩ := (Block.reads_body_iff (isInstruction_filtered text)).1 hreads
    rw [← hcode]
    exact Block.nested_code hb
  · intro hnested
    obtain ⟨b, hb, hcode⟩ := Block.exists_code_eq hnested
    exact ⟨b, (Block.reads_body_iff (isInstruction_filtered text)).2 ⟨hb, hcode⟩⟩

end Listing
end TapeC
