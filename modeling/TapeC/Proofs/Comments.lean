import TapeC.Proofs.Delivery
import TapeC.Proofs.Unmatched

/-!
Comments.

A listing is computed from the instructions of a text, and the only thing it takes
from the text itself is where they stand.  So two texts with the same instructions
have the same listing but for the offsets, and these name the same instructions by
number (`Source.IsNth`).  For one more byte of comment the offsets can be given
outright: a scan renames its indexes as the text moves them (`Scan.run_insert`).
-/

namespace TapeC

/-! ## Instructions by number -/

namespace Source

/-- The bytes that are instructions. -/
def alphabet : Text := Text.ascii "><+-.,[]"

theorem isInstruction_iff_mem {b : UInt8} : isInstruction b = true ↔ b ∈ alphabet := by
  constructor
  · intro h
    obtain ⟨i, hi⟩ := Option.isSome_iff_exists.1 h
    obtain rfl := Instruction.ofByte?_eq_some_iff.1 hi
    cases i <;> decide
  · intro h
    have hbyte : b = 62 ∨ b = 60 ∨ b = 43 ∨ b = 45 ∨ b = 46 ∨ b = 44 ∨ b = 91 ∨ b = 93 := by
      simpa [alphabet, Text.ascii] using h
    rcases hbyte with rfl | rfl | rfl | rfl | rfl | rfl | rfl | rfl <;> decide

theorem filtered_eq_filter (text : Text) : filtered text = text.filter (· ∈ alphabet) := by
  apply List.filter_congr
  intro b _
  rw [Bool.eq_iff_iff, isInstruction_iff_mem, decide_eq_true_iff]

/-- The byte at offset `o` is an instruction, and `k` instructions stand before it. -/
structure IsNth (text : Text) (k o : Nat) : Prop where
  instruction : ∃ b ∈ alphabet, text[o]? = some b
  before : ((text.take o).filter (· ∈ alphabet)).length = k

theorem IsNth.cons {text : Text} {k o : Nat} (h : IsNth text k o) (b : UInt8) :
    IsNth (b :: text) (if isInstruction b then k + 1 else k) (o + 1) := by
  refine ⟨by simpa using h.instruction, ?_⟩
  rw [List.take_succ_cons, ← filtered_eq_filter, filtered, List.filter_cons]
  have hrest : ((text.take o).filter isInstruction).length = k := by
    rw [← h.before, ← filtered_eq_filter]
    rfl
  split
  · rw [List.length_cons, hrest]
  · exact hrest

theorem isNth_of_getElem?_offsets {text : Text} {k o : Nat} (h : (offsets text)[k]? = some o) :
    IsNth text k o := by
  induction text generalizing k o with
  | nil => simp [offsets] at h
  | cons b rest ih =>
    rw [offsets_cons] at h
    by_cases hb : isInstruction b = true
    · rw [if_pos hb] at h
      cases k with
      | zero =>
        obtain rfl : 0 = o := by simpa using h
        exact ⟨⟨b, isInstruction_iff_mem.1 hb, rfl⟩, rfl⟩
      | succ k =>
        obtain ⟨n, hn, rfl⟩ : ∃ n, (offsets rest)[k]? = some n ∧ n + 1 = o := by simpa using h
        have hnext := (ih hn).cons b
        rwa [if_pos hb] at hnext
    · rw [if_neg hb, List.nil_append] at h
      obtain ⟨n, hn, rfl⟩ : ∃ n, (offsets rest)[k]? = some n ∧ n + 1 = o := by simpa using h
      have hnext := (ih hn).cons b
      rwa [if_neg hb] at hnext

end Source

/-! ## One more byte -/

namespace Scan

/-- Where an offset goes when a byte is put in at offset `k`. -/
def shift (k o : Nat) : Nat := if k ≤ o then o + 1 else o

theorem run_insert {c : UInt8} (hc : ¬ IsBracket c) (before after : Text) :
    start.run 0 (before ++ c :: after) =
      (start.run 0 (before ++ after)).reindex (shift before.length) := by
  have hbefore : (start.run 0 before).reindex (shift before.length) = start.run 0 before := by
    apply reindex_run
    intro i hi
    show (if before.length ≤ 0 + i then _ else _) = _
    rw [if_neg (by omega)]
  have hafter : ∀ i < after.length,
      shift before.length (0 + before.length + i) = 0 + before.length + 1 + i := by
    intro i _
    show (if before.length ≤ 0 + before.length + i then _ else _) = _
    rw [if_pos (by omega)]
    omega
  rw [run_append, run_append, run, step_of_not_isBracket hc, reindex_run hafter, hbefore]

end Scan

/-! ## Listings of texts with the same instructions -/

namespace Listing

open Source

theorem ofText_of_filtered_eq {a b : Text} (h : Source.filtered a = Source.filtered b)
    (p : Prelude) : ofText p a = { ofText p b with unmatched := (ofText p a).unmatched } := by
  simp only [ofText, h]

theorem isNth_of_getElem?_unmatched {p : Prelude} {text : Text} {i o : Nat}
    (h : (ofText p text).unmatched[i]? = some o) :
    ∃ k, (ofText p text).balance.unmatched[i]? = some k ∧ IsNth text k o := by
  have hlocate : (ofText p text).unmatched =
      (ofText p text).balance.unmatched.map (offsetOf text) :=
    locate_eq_map (unmatched_lt_length text)
  rw [hlocate, List.getElem?_map] at h
  obtain ⟨k, hk, rfl⟩ := Option.map_eq_some_iff.1 h
  have hlt := unmatched_lt_length text k (List.mem_of_getElem? hk)
  exact ⟨k, hk, isNth_of_getElem?_offsets (getElem?_offsets hlt)⟩

theorem length_unmatched (p : Prelude) (text : Text) :
    (ofText p text).unmatched.length = (ofText p text).balance.unmatched.length := by
  show (locate text _).length = _
  rw [locate_eq_map (unmatched_lt_length text), List.length_map]
  rfl

theorem ofText_insert {c : UInt8} (hc : c ∉ alphabet) (p : Prelude) (before after : Text) :
    ofText p (before ++ c :: after) =
      { ofText p (before ++ after) with
        unmatched := (ofText p (before ++ after)).unmatched.map (Scan.shift before.length) } := by
  have hplain : ¬ isInstruction c = true := fun h => hc (isInstruction_iff_mem.1 h)
  have hfiltered : Source.filtered (before ++ c :: after) = Source.filtered (before ++ after) := by
    rw [filtered_append, filtered_append, Source.filtered, Source.filtered,
      List.filter_cons_of_neg hplain]
    rfl
  have hbracket : ¬ IsBracket c := fun h => hplain (isInstruction_of_isBracket h)
  have hunmatched : (ofText p (before ++ c :: after)).unmatched =
      (ofText p (before ++ after)).unmatched.map (Scan.shift before.length) := by
    rw [unmatched_ofText, unmatched_ofText, Scan.run_insert hbracket, Scan.leftover_reindex]
  rw [ofText_of_filtered_eq hfiltered, hunmatched]

theorem filtered_printed (text : Text) :
    Source.filtered (Source.filtered text ++ [Byte.newline]) = Source.filtered text := by
  rw [filtered_append, filtered_filtered]
  exact List.append_nil _

/-- In a text without comments an offset is the number of an instruction. -/
theorem unmatched_printed (p : Prelude) (text : Text) :
    (ofText p (Source.filtered text ++ [Byte.newline])).unmatched =
      (ofText p text).balance.unmatched := by
  have hnewline : ¬ IsBracket Byte.newline := by decide
  rw [unmatched_ofText, Scan.run_append, Scan.run, Scan.step_of_not_isBracket hnewline, Scan.run]
  exact (Balance.unmatched_ofCode _).symm

/-- Comments have no influence on a listing but for the offsets.  Texts with the same
instructions have the same listing, and their unmatched brackets are the same
instructions by number.  One more byte of comment moves the offsets behind it by one,
and the program that the filter prints has the numbers themselves for offsets. -/
theorem comments_only_move_offsets (p : Prelude) :
    (∀ a b : Text, a.filter (· ∈ alphabet) = b.filter (· ∈ alphabet) →
      (ofText p a).filtered = (ofText p b).filtered ∧
      (ofText p a).code = (ofText p b).code ∧
      (ofText p a).wellFormed = (ofText p b).wellFormed ∧
      (ofText p a).unmatched.length = (ofText p b).unmatched.length ∧
      ∀ i o o' : Nat, (ofText p a).unmatched[i]? = some o → (ofText p b).unmatched[i]? = some o' →
        ∃ k, IsNth a k o ∧ IsNth b k o') ∧
    (∀ (before after : Text) (c : UInt8), c ∉ alphabet →
      ofText p (before ++ c :: after) =
        { ofText p (before ++ after) with
          unmatched := (ofText p (before ++ after)).unmatched.map fun o =>
            if before.length ≤ o then o + 1 else o }) ∧
    ∀ (text printed : Text), printed = (ofText p text).filtered ++ [Byte.newline] →
      (ofText p printed).filtered = (ofText p text).filtered ∧
      (ofText p printed).code = (ofText p text).code ∧
      (ofText p printed).unmatched = (ofText p text).balance.unmatched ∧
      ∀ (w : Workspace) (s : CommandLine.Settings) (name : Text), w.readFile name = .ok text →
        (CommandLine.runFilter w .working s name).stdout = printed := by
  refine ⟨?_, ?_, ?_⟩
  · intro a b hab
    rw [← filtered_eq_filter, ← filtered_eq_filter] at hab
    have hsame := ofText_of_filtered_eq hab p
    have hbalance : (ofText p a).balance = (ofText p b).balance := by rw [hsame]
    refine ⟨by rw [hsame], by rw [hsame], by rw [wellFormed, wellFormed, hbalance], ?_, ?_⟩
    · rw [length_unmatched, length_unmatched, hbalance]
    · intro i o o' ho ho'
      obtain ⟨k, hk, hnth⟩ := isNth_of_getElem?_unmatched ho
      obtain ⟨k', hk', hnth'⟩ := isNth_of_getElem?_unmatched ho'
      rw [hbalance, hk'] at hk
      obtain rfl := Option.some.inj hk
      exact ⟨k', hnth, hnth'⟩
  · intro before after c hc
    exact ofText_insert hc p before after
  · rintro text _ rfl
    have hsame : ofText p ((ofText p text).filtered ++ [Byte.newline]) = _ :=
      ofText_of_filtered_eq (filtered_printed text) p
    refine ⟨by rw [hsame], by rw [hsame], unmatched_printed p text, ?_⟩
    intro w s name hread
    obtain ⟨stderr, hrun⟩ := CommandLine.runFilter_working hread s
    rw [hrun]
    rfl

/-- Two texts with the loop end and the loop start of `]+[` under different comments,
and a byte put in between them. -/
theorem comments_only_move_offsets_stray :
    let a := Text.ascii "x]\n+ y["
    let b := Text.ascii "]é+["
    let w := (Workspace.fresh [Text.ascii "w"] 0).put (Text.ascii "a.bf") a
    a.filter (· ∈ alphabet) = b.filter (· ∈ alphabet) ∧
      (ofText .standard a).code = (ofText .standard b).code ∧
      (ofText .standard a).unmatched = [1, 6] ∧ (ofText .standard b).unmatched = [0, 3] ∧
      (∃ k, IsNth a k 6 ∧ IsNth b k 3) ∧
      (ofText .standard (Text.ascii "x]\n#+ y[")).unmatched = [1, 7] ∧
      (ofText .standard (Text.ascii "]+[\n")).unmatched = (ofText .standard a).balance.unmatched ∧
      (CommandLine.runFilter w .working CommandLine.Command.filter.defaults
        (Text.ascii "a.bf")).stdout = Text.ascii "]+[\n" := by
  intro a b w
  obtain ⟨hsame, hinsert, hprint⟩ := comments_only_move_offsets .standard
  have hab : a.filter (· ∈ alphabet) = b.filter (· ∈ alphabet) := by decide
  have ha : (ofText .standard a).unmatched = [1, 6] := by decide
  have hb : (ofText .standard b).unmatched = [0, 3] := by decide
  obtain ⟨_, hcode, _, _, hnth⟩ := hsame a b hab
  refine ⟨hab, hcode, ha, hb, hnth 1 6 3 (by rw [ha]; rfl) (by rw [hb]; rfl), ?_, ?_⟩
  · have hmoved := hinsert (Text.ascii "x]\n") (Text.ascii "+ y[") 35 (by decide)
    exact (congrArg unmatched hmoved).trans (by decide)
  · obtain ⟨_, _, hunmatched, hfilter⟩ := hprint a (Text.ascii "]+[\n") (by decide)
    exact ⟨hunmatched, hfilter w _ (Text.ascii "a.bf") (by decide +kernel)⟩

end Listing
end TapeC
