import TapeC.Proofs.Nesting

/-!
Brackets that belong together.

Two offsets are partners exactly when the text can be cut there into what stands
before, a nested inside and what stands after (`Partners.cut` and
`Partners.exists_cut`), so every question about partners becomes one about
appended texts.  A bracket has at most one partner, and `Scan.mem_leftover_iff`
says that the scan remembers just the brackets that have none.
-/

namespace TapeC

open Source

/-! ## Looking up across a cut -/

theorem getElem?_append_cons (a x : Text) (c : UInt8) : (a ++ c :: x)[a.length]? = some c := by
  rw [List.getElem?_append_right (Nat.le_refl _), Nat.sub_self, List.getElem?_cons_zero]

theorem cases_getElem?_append_cons {a x : Text} {b c : UInt8} {o : Nat}
    (h : (a ++ c :: x)[o]? = some b) :
    a[o]? = some b ∨ o = a.length ∨ ∃ k, o = a.length + 1 + k ∧ x[k]? = some b := by
  rcases Nat.lt_trichotomy o a.length with hlt | heq | hgt
  · rw [List.getElem?_append_left hlt] at h
    exact Or.inl h
  · exact Or.inr (Or.inl heq)
  · have hrest : o - a.length = (o - a.length - 1) + 1 := by omega
    rw [List.getElem?_append_right (Nat.le_of_lt hgt), hrest, List.getElem?_cons_succ] at h
    exact Or.inr (Or.inr ⟨o - a.length - 1, by omega, h⟩)

/-! ## Cutting a text at two partners -/

namespace Partners

theorem cut {x : Text} (hx : Nested (filtered x)) (a b : Text) :
    Partners (a ++ Instruction.loopStart.byte :: (x ++ Instruction.loopEnd.byte :: b))
      a.length (a.length + 1 + x.length) := by
  have hsplit : a ++ Instruction.loopStart.byte :: (x ++ Instruction.loopEnd.byte :: b) =
      (a ++ Instruction.loopStart.byte :: x) ++ Instruction.loopEnd.byte :: b := by
    rw [List.append_assoc, List.cons_append]
  have hlen : (a ++ Instruction.loopStart.byte :: x).length = a.length + 1 + x.length := by
    rw [List.length_append, List.length_cons]
    omega
  refine ⟨by omega, ?_, ?_, ?_⟩
  · exact getElem?_append_cons a _ _
  · rw [hsplit, ← hlen]
    exact getElem?_append_cons _ b _
  · have hbetween : between (a ++ Instruction.loopStart.byte ::
        (x ++ Instruction.loopEnd.byte :: b)) a.length (a.length + 1 + x.length) = x := by
      rw [between, hsplit, ← hlen, List.take_left, ← List.drop_drop, List.drop_left]
      rfl
    rw [hbetween]
    exact hx

theorem exists_cut {text : Text} {i j : Nat} (h : Partners text i j) :
    ∃ a x b, text = a ++ Instruction.loopStart.byte :: (x ++ Instruction.loopEnd.byte :: b) ∧
      a.length = i ∧ a.length + 1 + x.length = j ∧ Nested (filtered x) := by
  obtain ⟨hij, hopen, hclose, hnested⟩ := h
  obtain ⟨hi, hopen⟩ := List.getElem?_eq_some_iff.1 hopen
  obtain ⟨hj, hclose⟩ := List.getElem?_eq_some_iff.1 hclose
  have hlen : (text.take j).length = j := List.length_take_of_le (Nat.le_of_lt hj)
  have hafter : text.drop j = Instruction.loopEnd.byte :: text.drop (j + 1) := by
    rw [List.drop_eq_getElem_cons hj, hclose]
  have hinside : (text.take j).drop i = Instruction.loopStart.byte :: between text i j := by
    rw [List.drop_eq_getElem_cons (by omega), List.getElem_take, hopen]
    rfl
  refine ⟨(text.take j).take i, between text i j, text.drop (j + 1), ?_, ?_, ?_, hnested⟩
  · rw [← List.cons_append, ← hinside, ← List.append_assoc, List.take_append_drop, ← hafter,
      List.take_append_drop]
  · rw [List.length_take, hlen]
    omega
  · rw [List.length_take, hlen, between, List.length_drop, hlen]
    omega

/-- Partners stay partners when more text is put around them. -/
theorem embed {text : Text} {i j : Nat} (h : Partners text i j) (before after : Text) :
    Partners (before ++ (text ++ after)) (before.length + i) (before.length + j) := by
  obtain ⟨a, x, b, rfl, rfl, rfl, hx⟩ := h.exists_cut
  have := cut hx (before ++ a) (b ++ after)
  simp only [List.length_append, List.append_assoc, List.cons_append, Nat.add_assoc] at this ⊢
  exact this

end Partners

/-! ## The scan at partners -/

namespace Scan

theorem mem_leftover_step {s : Scan} {index o : Nat} {b : UInt8}
    (h : o ∈ (s.step index b).leftover) : o ∈ s.leftover ∨ o = index := by
  by_cases hb : IsBracket b
  · rcases hb with rfl | rfl
    · rw [step_loopStart, leftover_opened, List.mem_append, List.mem_singleton] at h
      exact h
    · obtain ⟨level, opened, strays⟩ := s
      cases opened with
      | nil =>
        rw [step_loopEnd_nil, leftover_stray _ level, List.mem_append, List.mem_singleton] at h
        exact h
      | cons i outer =>
        rw [step_loopEnd_cons] at h
        rw [leftover_opened level ⟨level, outer, strays⟩]
        exact Or.inl (List.mem_append_left _ h)
  · rw [step_of_not_isBracket hb] at h
    exact Or.inl h

/-- A scan comes to remember only what it passes. -/
theorem mem_leftover_run {s : Scan} {index o : Nat} {text : Text}
    (h : o ∈ (s.run index text).leftover) : o ∈ s.leftover ∨ index ≤ o := by
  induction text generalizing s index with
  | nil => exact Or.inl h
  | cons b rest ih =>
    rcases ih h with h | h
    · rcases mem_leftover_step h with h | h
      · exact Or.inl h
      · exact Or.inr (by omega)
    · exact Or.inr (by omega)

theorem strays_suffix_step (s : Scan) (index : Nat) (b : UInt8) :
    s.strays <:+ (s.step index b).strays := by
  by_cases hb : IsBracket b
  · obtain ⟨level, opened, strays⟩ := s
    rcases hb with rfl | rfl
    · exact List.suffix_refl _
    · cases opened with
      | nil => exact List.suffix_cons _ _
      | cons _ _ => exact List.suffix_refl _
  · have hkept := congrArg strays (step_of_not_isBracket hb s index)
    exact hkept.symm ▸ List.suffix_refl _

theorem strays_suffix_run (s : Scan) (index : Nat) (text : Text) :
    s.strays <:+ (s.run index text).strays := by
  induction text generalizing s index with
  | nil => exact List.suffix_refl _
  | cons b rest ih => exact (strays_suffix_step s index b).trans (ih _ _)

theorem run_loop {x : Text} (hx : Nested (filtered x)) (s : Scan) (index : Nat) (b : Text) :
    s.run index (Instruction.loopStart.byte :: (x ++ Instruction.loopEnd.byte :: b)) =
      s.run (index + 1 + x.length + 1) b := by
  rw [run, run_append, run_of_nested hx, run, step_loopEnd_step_loopStart]

end Scan

namespace Partners

theorem not_mem_leftover {text : Text} {i j : Nat} (h : Partners text i j) :
    i ∉ (Scan.start.run 0 text).leftover ∧ j ∉ (Scan.start.run 0 text).leftover := by
  obtain ⟨a, x, b, rfl, rfl, rfl, hx⟩ := h.exists_cut
  have hlt := (Scan.skeleton_run a).lt_length
  rw [Scan.run_append, Nat.zero_add, Scan.run_loop hx]
  constructor
  · intro hmem
    rcases Scan.mem_leftover_run hmem with hmem | hle
    · exact Nat.lt_irrefl _ (hlt _ hmem)
    · omega
  · intro hmem
    rcases Scan.mem_leftover_run hmem with hmem | hle
    · have := hlt _ hmem
      omega
    · omega

/-! ## A bracket has at most one partner -/

/-- No beginning of a nested text is a nested text and a loop end: the scan of it
would keep the loop end as a stray. -/
theorem not_nested_append_loopEnd {x y : Text} (hx : Nested (filtered x)) :
    ¬ Nested (filtered (x ++ Instruction.loopEnd.byte :: y)) := by
  intro h
  have hrun := Scan.run_of_nested h Scan.start 0
  rw [Scan.run_append, Scan.run_of_nested hx, Scan.run] at hrun
  have hkept := Scan.strays_suffix_run
    (Scan.start.step (0 + x.length) Instruction.loopEnd.byte) (0 + x.length + 1) y
  rw [hrun] at hkept
  exact absurd (List.suffix_nil.1 hkept) (List.cons_ne_nil _ _)

/-- No end of a nested text is a loop start and a nested text: the scan of it would
still have the loop open. -/
theorem not_nested_loopStart_append {x y : Text} (hy : Nested (filtered y)) :
    ¬ Nested (filtered (x ++ Instruction.loopStart.byte :: y)) := by
  intro h
  have hrun := Scan.run_of_nested h Scan.start 0
  rw [Scan.run_append, Scan.run, Scan.run_of_nested hy, Scan.step_loopStart] at hrun
  exact List.cons_ne_nil _ _ (congrArg Scan.opened hrun)

theorem not_lt_right {text : Text} {i j k : Nat} (hj : Partners text i j)
    (hk : Partners text i k) : ¬ j < k := by
  intro hlt
  obtain ⟨a, x, b, rfl, rfl, rfl, hx⟩ := hj.exists_cut
  obtain ⟨a', y, b', htext, ha, rfl, hy⟩ := hk.exists_cut
  obtain ⟨rfl, htail⟩ := List.append_inj htext ha.symm
  rw [List.cons.injEq] at htail
  -- the longer inside begins with the shorter one and its loop end
  have hpre : x ++ Instruction.loopEnd.byte :: b = y ++ Instruction.loopEnd.byte :: b' := htail.2
  rcases List.append_eq_append_iff.1 hpre with ⟨c, hyc, hb⟩ | ⟨c, hxc, _⟩
  · cases c with
    | nil =>
      rw [List.append_nil] at hyc
      rw [hyc] at hlt
      exact Nat.lt_irrefl _ hlt
    | cons d c =>
      rw [List.cons_append, List.cons.injEq] at hb
      rw [← hb.1] at hyc
      rw [hyc] at hy
      exact not_nested_append_loopEnd hx hy
  · rw [hxc, List.length_append] at hlt
    omega

theorem right_unique {text : Text} {i j k : Nat} (hj : Partners text i j)
    (hk : Partners text i k) : j = k := by
  have := not_lt_right hj hk
  have := not_lt_right hk hj
  omega

theorem not_lt_left {text : Text} {i j k : Nat} (hi : Partners text i k)
    (hj : Partners text j k) : ¬ i < j := by
  intro hlt
  obtain ⟨a, x, b, rfl, rfl, hk, hx⟩ := hi.exists_cut
  obtain ⟨a', y, b', htext, rfl, hk', hy⟩ := hj.exists_cut
  rw [← List.cons_append, ← List.append_assoc, ← List.cons_append, ← List.append_assoc] at htext
  obtain ⟨htext, _⟩ := List.append_inj htext (by
    rw [List.length_append, List.length_append, List.length_cons, List.length_cons]
    omega)
  -- the longer inside ends with the shorter one's loop start and inside
  rcases List.append_eq_append_iff.1 htext with ⟨c, hac, hopen⟩ | ⟨c, hac, _⟩
  · cases c with
    | nil =>
      rw [List.append_nil] at hac
      rw [hac] at hlt
      exact Nat.lt_irrefl _ hlt
    | cons d c =>
      rw [List.cons_append, List.cons.injEq] at hopen
      rw [hopen.2] at hx
      exact not_nested_loopStart_append hy hx
  · rw [hac, List.length_append] at hlt
    omega

theorem left_unique {text : Text} {i j k : Nat} (hi : Partners text i k)
    (hj : Partners text j k) : i = j := by
  have := not_lt_left hi hj
  have := not_lt_left hj hi
  omega

end Partners

/-! ## Brackets without a partner -/

/-- Whether a bracket has a partner on either side. -/
def HasPartner (text : Text) (o : Nat) : Prop := ∃ q, Partners text o q ∨ Partners text q o

namespace HasPartner

theorem embed {text : Text} {o : Nat} (h : HasPartner text o) (before after : Text) :
    HasPartner (before ++ (text ++ after)) (before.length + o) := by
  obtain ⟨q, h | h⟩ := h
  · exact ⟨before.length + q, Or.inl (h.embed before after)⟩
  · exact ⟨before.length + q, Or.inr (h.embed before after)⟩

/-- All brackets of a nested text have their partners in it. -/
theorem of_nested {text : Text} (h : Nested (filtered text)) :
    ∀ (o : Nat) (b : UInt8), text[o]? = some b → IsBracket b → HasPartner text o := by
  refine Nested.text_induction (P := fun t => ∀ (o : Nat) (b : UInt8), t[o]? = some b →
    IsBracket b → HasPartner t o) ?_ ?_ ?_ h
  · intro o b ho _
    simp at ho
  · intro c x hc ih o b ho hb
    rcases cases_getElem?_append_cons (a := []) ho with hnil | rfl | ⟨k, rfl, hget⟩
    · simp at hnil
    · obtain rfl : c = b := Option.some.inj ho
      exact absurd hb hc
    · have := (ih k b hget hb).embed [c] []
      rwa [List.append_nil] at this
  · intro x y hx hy ihx ihy o b ho hb
    have hpair := Partners.cut hx [] y
    rw [List.length_nil, Nat.zero_add] at hpair
    rcases cases_getElem?_append_cons ho with hfront | rfl | ⟨k, rfl, hget⟩
    · rcases cases_getElem?_append_cons (a := []) hfront with hnil | rfl | ⟨k, rfl, hget⟩
      · simp at hnil
      · exact ⟨_, Or.inl hpair⟩
      · exact (ihx k b hget hb).embed [Instruction.loopStart.byte] (Instruction.loopEnd.byte :: y)
    · refine ⟨0, Or.inr ?_⟩
      rwa [List.length_cons, Nat.add_comm]
    · have := (ihy k b hget hb).embed
        (Instruction.loopStart.byte :: x ++ [Instruction.loopEnd.byte]) []
      rwa [List.append_nil, List.append_assoc, List.singleton_append, List.length_append,
        List.length_singleton] at this

end HasPartner

namespace Scan
namespace Skeleton

/-- A skeleton keeps every bracket that has no partner. -/
theorem mem_leftover_or_hasPartner {text : Text} {s : Scan} (h : Skeleton text s) :
    ∀ (o : Nat) (b : UInt8), text[o]? = some b → IsBracket b →
      o ∈ s.leftover ∨ HasPartner text o := by
  refine leftover_induction (P := fun t l => ∀ (o : Nat) (b : UInt8), t[o]? = some b →
    IsBracket b → o ∈ l ∨ HasPartner t o) ?_ ?_ h
  · intro x hx o b ho hb
    exact Or.inr (HasPartner.of_nested hx o b ho hb)
  · intro a c x s _ _ hx ih o b ho hb
    rcases cases_getElem?_append_cons ho with hfront | rfl | ⟨k, rfl, hget⟩
    · rcases ih o b hfront hb with hmem | hpartner
      · exact Or.inl (List.mem_append_left _ hmem)
      · have := hpartner.embed [] (c :: x)
        rw [List.nil_append, List.length_nil, Nat.zero_add] at this
        exact Or.inr this
    · exact Or.inl (List.mem_append_right _ (List.mem_singleton.2 rfl))
    · have := (HasPartner.of_nested hx k b hget hb).embed (a ++ [c]) []
      rw [List.append_nil, List.append_assoc, List.singleton_append, List.length_append,
        List.length_singleton] at this
      exact Or.inr this

theorem lt_length_of_mem {text : Text} {s : Scan} (h : Skeleton text s) :
    (∀ o ∈ s.strays, o < text.length) ∧ ∀ o ∈ s.opened, o < text.length := by
  refine ⟨fun o ho => h.lt_length o ?_, fun o ho => h.lt_length o ?_⟩
  · exact List.mem_append_left _ (List.mem_reverse.2 ho)
  · exact List.mem_append_right _ (List.mem_reverse.2 ho)

/-- What a skeleton keeps as strays are loop ends, and what it keeps open are loop
starts. -/
theorem getElem?_of_mem {text : Text} {s : Scan} (h : Skeleton text s) :
    (∀ o ∈ s.strays, text[o]? = some Instruction.loopEnd.byte) ∧
      ∀ o ∈ s.opened, text[o]? = some Instruction.loopStart.byte := by
  induction h with
  | nested _ => exact ⟨fun o ho => absurd ho List.not_mem_nil, fun o ho => absurd ho List.not_mem_nil⟩
  | @stray a x level strays hs _ ih =>
    refine ⟨fun o ho => ?_, fun o ho => absurd ho List.not_mem_nil⟩
    rcases List.mem_cons.1 ho with rfl | ho
    · exact getElem?_append_cons a x _
    · rw [List.getElem?_append_left (hs.lt_length_of_mem.1 o ho)]
      exact ih.1 o ho
  | @opened a x s hs _ ih =>
    refine ⟨fun o ho => ?_, fun o ho => ?_⟩
    · rw [List.getElem?_append_left (hs.lt_length_of_mem.1 o ho)]
      exact ih.1 o ho
    · rcases List.mem_cons.1 ho with rfl | ho
      · exact getElem?_append_cons a x _
      · rw [List.getElem?_append_left (hs.lt_length_of_mem.2 o ho)]
        exact ih.2 o ho

/-- The bytes that a skeleton leaves over. -/
theorem map_getElem?_leftover {text : Text} {s : Scan} (h : Skeleton text s) :
    s.leftover.map (text[·]?) =
      List.replicate s.strays.length (some Instruction.loopEnd.byte) ++
        List.replicate s.opened.length (some Instruction.loopStart.byte) := by
  obtain ⟨hends, hstarts⟩ := h.getElem?_of_mem
  have hconst : ∀ (os : List Nat) (b : UInt8), (∀ o ∈ os, text[o]? = some b) →
      os.reverse.map (text[·]?) = List.replicate os.length (some b) := by
    intro os b hos
    rw [← List.length_reverse, ← List.map_const']
    apply List.map_congr_left
    intro o ho
    exact hos o (List.mem_reverse.1 ho)
  rw [leftover, List.map_append, hconst _ _ hends, hconst _ _ hstarts]

theorem isBracket_of_mem_leftover {text : Text} {s : Scan} (h : Skeleton text s) :
    ∀ o ∈ s.leftover, ∃ b, text[o]? = some b ∧ IsBracket b := by
  intro o ho
  rcases List.mem_append.1 ho with ho | ho
  · exact ⟨_, h.getElem?_of_mem.1 o (List.mem_reverse.1 ho), Or.inr rfl⟩
  · exact ⟨_, h.getElem?_of_mem.2 o (List.mem_reverse.1 ho), Or.inl rfl⟩

end Skeleton

/-- The scan of a text remembers the brackets that have no partner and no others. -/
theorem mem_leftover_iff (text : Text) (o : Nat) :
    o ∈ (start.run 0 text).leftover ↔
      (∃ b, text[o]? = some b ∧ IsBracket b) ∧ ¬ HasPartner text o := by
  constructor
  · intro hmem
    refine ⟨(skeleton_run text).isBracket_of_mem_leftover o hmem, ?_⟩
    intro hpartner
    obtain ⟨q, h | h⟩ := hpartner
    · exact h.not_mem_leftover.1 hmem
    · exact h.not_mem_leftover.2 hmem
  · intro h
    obtain ⟨⟨b, hget, hb⟩, hnone⟩ := h
    exact ((skeleton_run text).mem_leftover_or_hasPartner o b hget hb).resolve_right hnone

end Scan
end TapeC
