import TapeC.Proofs.Delivery
import TapeC.Proofs.Position
import TapeC.Proofs.Unmatched

/-!
What a report says about the brackets of a program.

A report counts in three ways: the analysis by instructions, the listing by bytes, and
the reader by lines and columns.  A mark holds what the reader is told of one
bracket, and `report_marks_unmatched` says that a report is the list of true marks of
all brackets without a partner, in reading order and with the loop ends first.  A
report without a mark does not exist, although the gate also looks at the level.
-/

namespace TapeC

/-! ## Unmatched brackets of a listing -/

namespace Listing

theorem unmatched_eq_nil_iff (p : Prelude) (text : Text) :
    (ofText p text).unmatched = [] ↔ (ofText p text).wellFormed = true := by
  have hcode : (ofText p text).unmatched = [] ↔
      (Balance.ofCode (Source.filtered text)).unmatched = [] := by
    show Source.locate text _ = [] ↔ _
    rw [Source.locate_eq_map (unmatched_lt_length text), List.map_eq_nil_iff]
  rw [hcode, Balance.unmatched_eq_nil_iff]
  exact (Balance.inOrder_iff_nested _).symm

theorem pairwise_unmatched (p : Prelude) (text : Text) :
    (ofText p text).unmatched.Pairwise (· < ·) := by
  rw [unmatched_ofText]
  exact (Scan.skeleton_run text).ascending

theorem lt_length_of_mem_unmatched (p : Prelude) (text : Text) :
    ∀ o ∈ (ofText p text).unmatched, o < text.length := by
  rw [unmatched_ofText]
  exact (Scan.skeleton_run text).lt_length

end Listing

/-! ## The text of a report -/

theorem Cause.positionList_eq {positions : List Int} (h : positions ≠ []) :
    positionList positions =
      Byte.space :: List.intercalate (Text.ascii ", ") (positions.map Decimal.integer) := by
  induction positions with
  | nil => exact absurd rfl h
  | cons p rest ih =>
    cases rest with
    | nil => simp [positionList]
    | cons q rest =>
      have hrest := ih (List.cons_ne_nil q rest)
      simp only [positionList, List.map_cons, List.intercalate_cons_cons] at hrest ⊢
      rw [hrest]
      simp [Text.ascii]

namespace Diagnostic

/-- What a reader is told of one bracket. -/
structure Mark where
  offset : Nat
  place : Position
  bracket : UInt8

namespace Mark

def ofOffset (text : Text) (o : Nat) : Mark := ⟨o, Position.ofOffset text o, text.getD o 0⟩

/-- The mark belongs to a bracket of the text.  Lines and columns count from one, and
the column counts bytes from the last line break before the bracket. -/
structure IsTrue (text : Text) (m : Mark) : Prop where
  byte : text[m.offset]? = some m.bracket
  isBracket : IsBracket m.bracket
  line : m.place.line = 1 + (text.take m.offset).count Byte.newline
  column : m.place.column = 1 + ((text.take m.offset).rtakeWhile (· ≠ Byte.newline)).length

def entry (name : Text) (m : Mark) : Text :=
  name ++ Text.ascii ":" ++ Decimal.natural m.place.line ++ Text.ascii ":" ++
    Decimal.natural m.place.column ++ Text.ascii ": unmatched " ++ [m.bracket]

theorem bracket_ofOffset {text : Text} {o : Nat} {b : UInt8} (h : text[o]? = some b) :
    (ofOffset text o).bracket = b := by
  show text.getD o 0 = b
  rw [List.getD_eq_getElem?_getD, h, Option.getD_some]

theorem isTrue_ofOffset {text : Text} {o : Nat} {b : UInt8} (h : text[o]? = some b)
    (hb : IsBracket b) : (ofOffset text o).IsTrue text := by
  have hplace : Position.ofOffset text o = _ := Position.after_start (text.take o)
  refine ⟨?_, ?_, congrArg Position.line hplace, congrArg Position.column hplace⟩
  · rw [bracket_ofOffset h]
    exact h
  · rw [bracket_ofOffset h]
    exact hb

theorem entry_ofOffset {text : Text} {o : Nat} {b : UInt8} (h : text[o]? = some b)
    (name : Text) : (ofOffset text o).entry name = Diagnostic.entry name text o := by
  rw [entry, bracket_ofOffset h]
  simp only [Diagnostic.entry, h]
  rfl

end Mark

/-! ## The marks of a text -/

/-- The marks of the brackets that have no partner. -/
def marksOf (p : Prelude) (text : Text) : List Mark :=
  (Listing.ofText p text).unmatched.map (Mark.ofOffset text)

theorem map_offset_marksOf (p : Prelude) (text : Text) :
    (marksOf p text).map Mark.offset = (Listing.ofText p text).unmatched := by
  rw [marksOf, List.map_map]
  exact List.map_id _

theorem isTrue_of_mem_marksOf {p : Prelude} {text : Text} {m : Mark} (h : m ∈ marksOf p text) :
    m.IsTrue text := by
  obtain ⟨o, ho, rfl⟩ := List.mem_map.1 h
  rw [Listing.unmatched_ofText] at ho
  obtain ⟨b, hb, hisb⟩ := (Scan.skeleton_run text).isBracket_of_mem_leftover o ho
  exact Mark.isTrue_ofOffset hb hisb

theorem pairwise_before_marksOf (p : Prelude) (text : Text) :
    (marksOf p text).Pairwise fun a b => a.place.Before b.place := by
  rw [marksOf, List.pairwise_map]
  refine (Listing.pairwise_unmatched p text).imp_of_mem ?_
  intro a b _ hb hab
  exact Position.before_ofOffset hab
    (Nat.le_of_lt (Listing.lt_length_of_mem_unmatched p text b hb))

theorem map_bracket_marksOf (p : Prelude) (text : Text) :
    ∃ ends starts, (marksOf p text).map Mark.bracket =
      List.replicate ends Instruction.loopEnd.byte ++
        List.replicate starts Instruction.loopStart.byte := by
  have hbytes := (Scan.skeleton_run text).map_getElem?_leftover
  have hbracket : Mark.bracket ∘ Mark.ofOffset text = (·.getD 0) ∘ (text[·]?) := by
    funext o
    exact List.getD_eq_getElem?_getD
  refine ⟨(Scan.start.run 0 text).strays.length, (Scan.start.run 0 text).opened.length, ?_⟩
  rw [marksOf, Listing.unmatched_ofText, List.map_map, hbracket, ← List.map_map, hbytes,
    List.map_append, List.map_replicate, List.map_replicate]
  rfl

theorem map_entry_marksOf (name : Text) (p : Prelude) (text : Text) :
    (marksOf p text).map (Mark.entry name) =
      (Listing.ofText p text).unmatched.map (entry name text) := by
  rw [marksOf, List.map_map]
  apply List.map_congr_left
  intro o ho
  have hbyte := (isTrue_of_mem_marksOf (List.mem_map_of_mem ho)).byte
  exact Mark.entry_ofOffset hbyte name

/-! ## Reports -/

theorem entries_ne_nil (name text : Text) {unmatched : List Nat} (h : unmatched ≠ []) :
    entries name text unmatched ≠ [] := by
  cases unmatched with
  | nil => exact absurd rfl h
  | cons o rest =>
    have hentry : entry name text o ≠ [] := by simp [entry]
    cases rest with
    | nil => simpa [entries] using hentry
    | cons q rest => simp [entries, List.intercalate_cons_cons, hentry]

theorem message_within_entries (name text : Text) {unmatched : List Nat} (h : unmatched ≠ []) :
    ((Failure.of (Cause.unbalanced (unmatched.map Int.ofNat))).within
        (entries name text unmatched)).message Cause.message =
      entries name text unmatched ++ Text.ascii ": unbalanced brackets at " ++
        List.intercalate (Text.ascii ", ") (unmatched.map Decimal.natural) := by
  have hlist : Cause.positionList (unmatched.map Int.ofNat) =
      Byte.space :: List.intercalate (Text.ascii ", ") (unmatched.map Decimal.natural) := by
    rw [Cause.positionList_eq (by simpa using h), List.map_map]
    rfl
  have hwords : Text.ascii ": unbalanced brackets at " =
      Text.ascii ": " ++ Text.ascii "unbalanced brackets at" ++ [Byte.space] := by decide
  rw [Failure.message_within _ _ _ (entries_ne_nil name text h), hwords]
  show entries name text unmatched ++ Text.ascii ": " ++
    (Text.ascii "unbalanced brackets at" ++ Cause.positionList (unmatched.map Int.ofNat)) = _
  rw [hlist]
  simp only [List.append_assoc, List.singleton_append]

/-- Only a program that is not in order has a report, and then there is something to
report. -/
theorem of_report_eq_some {name text : Text} {p : Prelude} {f : Failure Cause}
    (h : report name text (Listing.ofText p text) = some f) :
    (Listing.ofText p text).unmatched ≠ [] ∧
      f = (Failure.of (.unbalanced ((Listing.ofText p text).unmatched.map Int.ofNat))).within
        (entries name text (Listing.ofText p text).unmatched) := by
  have hbad : (Listing.ofText p text).wellFormed ≠ true := by
    intro hgood
    rw [report_eq_none_iff.2 hgood] at h
    cases h
  refine ⟨fun hnil => hbad ((Listing.unmatched_eq_nil_iff p text).1 hnil), ?_⟩
  simpa [report, Listing.fault?, hbad] using h.symm

/-- A report exists just if the program is not in order.  It names all brackets that
have no partner, at least one, each by its place, its byte and its offset, and they
follow each other in the text with all loop ends before all loop starts. -/
theorem report_marks_unmatched (name text : Text) (p : Prelude) :
    (report name text (Listing.ofText p text) = none ↔
      (Listing.ofText p text).wellFormed = true) ∧
    ∀ f, report name text (Listing.ofText p text) = some f →
      ∃ marks : List Mark, marks ≠ [] ∧
        marks.map Mark.offset = (Listing.ofText p text).unmatched ∧
        f.message Cause.message =
          List.intercalate (Text.ascii ", ") (marks.map (Mark.entry name)) ++
            Text.ascii ": unbalanced brackets at " ++
            List.intercalate (Text.ascii ", ") (marks.map fun m => Decimal.natural m.offset) ∧
        f.cause = .unbalanced (marks.map fun m => Int.ofNat m.offset) ∧
        (∀ m ∈ marks, m.IsTrue text) ∧
        marks.Pairwise (fun a b => a.offset < b.offset) ∧
        marks.Pairwise (fun a b => a.place.Before b.place) ∧
        ∃ ends starts, marks.map Mark.bracket =
          List.replicate ends Instruction.loopEnd.byte ++
            List.replicate starts Instruction.loopStart.byte := by
  refine ⟨report_eq_none_iff, fun f hf => ?_⟩
  obtain ⟨hsome, rfl⟩ := of_report_eq_some hf
  have hoffsets := map_offset_marksOf p text
  refine ⟨marksOf p text, by simpa [marksOf] using hsome, hoffsets, ?_, ?_,
    fun m hm => isTrue_of_mem_marksOf hm, ?_, pairwise_before_marksOf p text,
    map_bracket_marksOf p text⟩
  · rw [message_within_entries name text hsome, map_entry_marksOf, ← hoffsets, List.map_map]
    rfl
  · rw [Failure.cause_within, ← hoffsets, List.map_map]
    rfl
  · have hascending := Listing.pairwise_unmatched p text
    rwa [← hoffsets, List.pairwise_map] at hascending

/-- One loop end too many on the first line, and a loop left open on each of the next
two. -/
theorem report_marks_unmatched_three :
    let text := Text.ascii "x]\n+[\n[-[]"
    let l := Listing.ofText .standard text
    ∃ f, report (Text.ascii "a.bf") text l = some f ∧
      f.message Cause.message =
        Text.ascii "a.bf:1:2: unmatched ], a.bf:2:2: unmatched [, a.bf:3:1: unmatched [" ++
          Text.ascii ": unbalanced brackets at 1, 4, 6" ∧
      ∃ marks : List Mark, marks.map Mark.offset = [1, 4, 6] ∧ (∀ m ∈ marks, m.IsTrue text) ∧
        marks.Pairwise (fun a b => a.place.Before b.place) := by
  intro text l
  let f : Failure Cause :=
    ⟨[Text.ascii "a.bf:1:2: unmatched ], a.bf:2:2: unmatched [, a.bf:3:1: unmatched ["],
      .unbalanced [1, 4, 6]⟩
  have hreport : report (Text.ascii "a.bf") text l = some f := by decide +kernel
  obtain ⟨marks, _, hoffsets, _, _, htrue, _, hbefore, _⟩ :=
    (report_marks_unmatched (Text.ascii "a.bf") text .standard).2 f hreport
  have hunmatched : l.unmatched = [1, 4, 6] := by decide +kernel
  exact ⟨f, hreport, by decide +kernel, marks, hoffsets.trans hunmatched, htrue, hbefore⟩

end Diagnostic
end TapeC
