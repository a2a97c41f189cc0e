import Mathlib.Tactic
import Snippet.Loop

/-!
# Nested reaches

Loops are found as a list of reaches, and how deep a loop is nested is counted from these alone
(`nesting`).  Some reaches belong to no loop: the condition behind a `do` block is listed as if it
were the header of one.  A `Layout` says what the list of reaches tells about the loops.

Layouts are put together like the statements of a program: one behind the other (`Layout.append`),
in the body of a loop (`Layout.nest`), and with the condition of a `do` loop behind them
(`Layout.condition`). The depth that is counted is then that of the loops (`Layout.depth_eq`).
-/

namespace Snippet

/-! ### Counting the reaches around a place -/

section

variable {spans more : List (Nat × Nat)} {place first last : Nat}

theorem nesting_append (spans more : List (Nat × Nat)) (place : Nat) :
    nesting (spans ++ more) place + 1 = nesting spans place + nesting more place := by
  simp only [nesting, List.filter_append, List.length_append]
  omega

theorem nesting_eq_one (h : ∀ span ∈ spans, place ≤ span.1 ∨ span.2 ≤ place) :
    nesting spans place = 1 := by
  rw [nesting, List.filter_eq_nil_iff.mpr]
  · rfl
  · intro span hs
    have := h span hs
    simp only [Bool.and_eq_true, decide_eq_true_eq, not_and]
    omega

theorem nesting_cons_of_lt (hf : first < place) (hl : place < last) :
    nesting ((first, last) :: spans) place = nesting spans place + 1 := by
  simp [nesting, hf, hl]

theorem nesting_cons_le (span : Nat × Nat) (spans : List (Nat × Nat)) (place : Nat) :
    nesting (span :: spans) place ≤ nesting spans place + 1 := by
  rw [nesting, nesting, List.filter_cons]
  dsimp only
  split <;> simp

end

/-! ### Layouts -/

/-- A loop in a text: where its header starts, how far it reaches, and where the headers of the
loops in its body start. -/
structure Loop where
  start : Nat
  stop : Nat
  inner : List Nat

/-- What the reaches `spans` tell about the loops `loops`, which are nested to the depth `depth` and
stand between `first` and `last`. -/
structure Layout (first last depth : Nat) (loops : List Loop) (spans : List (Nat × Nat)) :
    Prop where
  le : first ≤ last
  within : ∀ span ∈ spans, first ≤ span.1 ∧ span.1 < span.2 ∧ span.2 ≤ last
  starts_increase : (spans.map Prod.fst).Pairwise (· < ·)
  mem_spans : ∀ loop ∈ loops, (loop.start, loop.stop) ∈ spans
  mem_inner : ∀ loop ∈ loops, ∀ start, start ∈ loop.inner ↔
    start ∈ loops.map Loop.start ∧ loop.start < start ∧ start < loop.stop
  nesting_le : ∀ span ∈ spans, nesting spans span.1 ≤ depth
  exists_nesting : depth = 0 ∨ ∃ loop ∈ loops, nesting spans loop.start = depth

namespace Layout

variable {first middle last depth depth' start stop : Nat} {loops more : List Loop}
  {spans others : List (Nat × Nat)}

theorem empty (h : first ≤ last) : Layout first last 0 [] [] where
  le := h
  within := by simp
  starts_increase := List.Pairwise.nil
  mem_spans := by simp
  mem_inner := by simp
  nesting_le := by simp
  exists_nesting := Or.inl rfl

theorem within_of_mem (h : Layout first last depth loops spans) {loop : Loop} (hm : loop ∈ loops) :
    first ≤ loop.start ∧ loop.start < loop.stop ∧ loop.stop ≤ last :=
  h.within _ (h.mem_spans loop hm)

theorem within_of_mem_starts (h : Layout first last depth loops spans)
    (hm : start ∈ loops.map Loop.start) : first ≤ start ∧ start < last := by
  obtain ⟨loop, hl, rfl⟩ := List.mem_map.mp hm
  have := h.within_of_mem hl
  omega

theorem widen (h : Layout first last depth loops spans) {first' last' : Nat} (hf : first' ≤ first)
    (hl : last ≤ last') : Layout first' last' depth loops spans where
  __ := h
  le := hf.trans (h.le.trans hl)
  within := by
    intro span hs
    have := h.within span hs
    omega

theorem nesting_eq_one_of_le (h : Layout first last depth loops spans) (hp : last ≤ start) :
    nesting spans start = 1 := by
  refine nesting_eq_one fun span hs => ?_
  have := h.within span hs
  omega

theorem nesting_eq_one_of_ge (h : Layout first last depth loops spans) (hp : start ≤ first) :
    nesting spans start = 1 := by
  refine nesting_eq_one fun span hs => ?_
  have := h.within span hs
  omega

theorem nesting_append_left (h' : Layout middle last depth' more others) (hp : start < middle) :
    nesting (spans ++ others) start = nesting spans start := by
  have := nesting_append spans others start
  have := h'.nesting_eq_one_of_ge (Nat.le_of_lt hp)
  omega

theorem nesting_append_right (h : Layout first middle depth loops spans) (hp : middle ≤ start) :
    nesting (spans ++ others) start = nesting others start := by
  have := nesting_append spans others start
  have := h.nesting_eq_one_of_le hp
  omega

theorem pairwise_append (h : ∀ span ∈ spans, span.1 < middle)
    (h' : ∀ span ∈ others, middle ≤ span.1) (hs : (spans.map Prod.fst).Pairwise (· < ·))
    (hs' : (others.map Prod.fst).Pairwise (· < ·)) :
    ((spans ++ others).map Prod.fst).Pairwise (· < ·) := by
  rw [List.map_append, List.pairwise_append]
  refine ⟨hs, hs', ?_⟩
  intro a ha b hb
  obtain ⟨span, hm, rfl⟩ := List.mem_map.mp ha
  obtain ⟨span', hm', rfl⟩ := List.mem_map.mp hb
  exact (h span hm).trans_le (h' span' hm')

/-- **One behind the other.** -/
theorem append (h : Layout first middle depth loops spans)
    (h' : Layout middle last depth' more others) :
    Layout first last (max depth depth') (loops ++ more) (spans ++ others) := by
  have hleft : ∀ span ∈ spans, span.1 < middle := fun span hs => by
    have := h.within span hs
    omega
  have hright : ∀ span ∈ others, middle ≤ span.1 := fun span hs => (h'.within span hs).1
  refine ⟨h.le.trans h'.le, ?_, pairwise_append hleft hright h.starts_increase h'.starts_increase,
    ?_, ?_, ?_, ?_⟩
  · exact List.forall_mem_append.mpr ⟨(h.widen le_rfl h'.le).within, (h'.widen h.le le_rfl).within⟩
  · refine List.forall_mem_append.mpr ⟨fun loop hm => ?_, fun loop hm => ?_⟩
    · exact List.mem_append_left _ (h.mem_spans loop hm)
    · exact List.mem_append_right _ (h'.mem_spans loop hm)
  · -- a loop of one part reaches to no loop of the other
    refine List.forall_mem_append.mpr ⟨fun loop hm start => ?_, fun loop hm start => ?_⟩
    · have hin := h.within_of_mem hm
      rw [h.mem_inner loop hm, List.map_append, List.mem_append, or_and_right, or_iff_left]
      rintro ⟨hs, hlt⟩
      have := h'.within_of_mem_starts hs
      omega
    · have hin := h'.within_of_mem hm
      rw [h'.mem_inner loop hm, List.map_append, List.mem_append, or_and_right, or_iff_right]
      rintro ⟨hs, hlt⟩
      have := h.within_of_mem_starts hs
      omega
  · refine List.forall_mem_append.mpr ⟨fun span hs => ?_, fun span hs => ?_⟩
    · rw [h'.nesting_append_left (hleft span hs)]
      exact (h.nesting_le span hs).trans (le_max_left _ _)
    · rw [h.nesting_append_right (hright span hs)]
      exact (h'.nesting_le span hs).trans (le_max_right _ _)
  · rcases le_total depth depth' with hd | hd
    · rw [max_eq_right hd]
      refine h'.exists_nesting.imp_right fun ⟨loop, hm, hn⟩ =>
        ⟨loop, List.mem_append_right _ hm, ?_⟩
      rwa [h.nesting_append_right (h'.within_of_mem hm).1]
    · rw [max_eq_left hd]
      refine h.exists_nesting.imp_right fun ⟨loop, hm, hn⟩ =>
        ⟨loop, List.mem_append_left _ hm, ?_⟩
      rwa [h'.nesting_append_left (hleft _ (h.mem_spans loop hm))]

/-- **In the body of a loop**, which reaches beyond the starts of the loops in it. -/
theorem nest (h : Layout first middle depth loops spans) (hf : start < first) (hs : first ≤ stop)
    (hi : ∀ loop ∈ loops, loop.start < stop) (hm : middle ≤ last) (hl : stop ≤ last) :
    Layout start last (depth + 1) (⟨start, stop, loops.map Loop.start⟩ :: loops)
      ((start, stop) :: spans) := by
  have houter : nesting ((start, stop) :: spans) start = 1 := by
    refine nesting_eq_one (List.forall_mem_cons.mpr ⟨Or.inl le_rfl, fun span hs => ?_⟩)
    have := h.within span hs
    omega
  refine ⟨by omega, ?_, ?_, ?_, ?_, ?_, ?_⟩
  · refine List.forall_mem_cons.mpr ⟨⟨le_rfl, by omega, hl⟩, fun span hs => ?_⟩
    have := h.within span hs
    omega
  · refine List.pairwise_cons.mpr ⟨fun a ha => ?_, h.starts_increase⟩
    obtain ⟨span, hs, rfl⟩ := List.mem_map.mp ha
    have := h.within span hs
    omega
  · exact List.forall_mem_cons.mpr ⟨List.mem_cons_self, fun loop hm =>
      List.mem_cons_of_mem _ (h.mem_spans loop hm)⟩
  · refine List.forall_mem_cons.mpr ⟨fun other => ?_, fun loop hm other => ?_⟩
    · rw [List.map_cons, List.mem_cons]
      constructor
      · intro ho
        obtain ⟨loop, hm, rfl⟩ := List.mem_map.mp ho
        exact ⟨Or.inr ho, hf.trans_le (h.within_of_mem hm).1, hi loop hm⟩
      · rintro ⟨rfl | ho, hlt, -⟩
        · exact absurd hlt (lt_irrefl _)
        · exact ho
    · have := h.within_of_mem hm
      rw [h.mem_inner loop hm, List.map_cons, List.mem_cons, or_and_right, or_iff_right]
      rintro ⟨rfl, hlt, -⟩
      omega
  · refine List.forall_mem_cons.mpr ⟨by rw [houter]; omega, fun span hs => ?_⟩
    have := nesting_cons_le (start, stop) spans span.1
    have := h.nesting_le span hs
    omega
  · refine Or.inr ?_
    rcases h.exists_nesting with rfl | ⟨loop, hm, hn⟩
    · exact ⟨_, List.mem_cons_self, houter⟩
    · have := h.within_of_mem hm
      refine ⟨loop, List.mem_cons_of_mem _ hm, ?_⟩
      rw [nesting_cons_of_lt (by omega) (hi loop hm), hn]

/-- **With one more reach behind it** that is that of no loop. The nesting gets no deeper by it. -/
theorem condition (h : Layout first middle depth loops spans) (hd : 0 < depth) (hm : middle ≤ start)
    (hs : start < stop) (hl : stop ≤ last) :
    Layout first last depth loops (spans ++ [(start, stop)]) := by
  have hleft : ∀ span ∈ spans, span.1 < start := fun span hs => by
    have := h.within span hs
    omega
  have hkeep : ∀ place, place ≤ start →
      nesting (spans ++ [(start, stop)]) place = nesting spans place := by
    intro place hp
    have := nesting_append spans [(start, stop)] place
    have : nesting [(start, stop)] place = 1 := nesting_eq_one (by simp [hp])
    omega
  have := h.le
  refine ⟨by omega, ?_, ?_, ?_, h.mem_inner, ?_, ?_⟩
  · refine List.forall_mem_append.mpr ⟨(h.widen le_rfl (by omega)).within, ?_⟩
    simp only [List.mem_singleton, forall_eq]
    omega
  · exact pairwise_append hleft (by simp) h.starts_increase (List.pairwise_singleton _ _)
  · exact fun loop hm => List.mem_append_left _ (h.mem_spans loop hm)
  · refine List.forall_mem_append.mpr ⟨fun span hs => ?_, ?_⟩
    · rw [hkeep _ (hleft span hs).le]
      exact h.nesting_le span hs
    · simp only [List.mem_singleton, forall_eq]
      rw [hkeep _ le_rfl, h.nesting_eq_one_of_le hm]
      exact hd
  · refine h.exists_nesting.imp_right fun ⟨loop, hm, hn⟩ => ⟨loop, hm, ?_⟩
    rwa [hkeep _ (hleft _ (h.mem_spans loop hm)).le]

/-! ### What is read off a layout -/

/-- **The greatest nesting is the depth of the loops.** -/
theorem depth_eq (h : Layout first last depth loops spans) :
    (spans.map fun span => nesting spans span.1).foldl max 0 = depth := by
  rw [List.foldl_max]
  rcases h.exists_nesting with rfl | ⟨loop, hm, hn⟩
  · have hnil : spans = [] := by
      refine List.eq_nil_iff_forall_not_mem.mpr fun span hs => ?_
      have := h.nesting_le span hs
      simp [nesting] at this
    rw [hnil]
    rfl
  · have hmax : (spans.map fun span => nesting spans span.1).max? = some depth :=
      List.max?_eq_some_iff.mpr ⟨List.mem_map.mpr ⟨_, h.mem_spans loop hm, hn⟩,
        List.forall_mem_map.mpr h.nesting_le⟩
    rw [hmax, Option.getD_some, Nat.zero_max]

/-- **The reach that starts at a loop is that of the loop.** -/
theorem mem_spans_iff (h : Layout first last depth loops spans) {loop : Loop} (hm : loop ∈ loops) :
    (loop.start, stop) ∈ spans ↔ stop = loop.stop := by
  constructor
  · intro hs
    have hnodup : (spans.map Prod.fst).Nodup := h.starts_increase.imp Nat.ne_of_lt
    have heq := List.inj_on_of_nodup_map hnodup hs (h.mem_spans loop hm) rfl
    exact congrArg Prod.snd heq
  · rintro rfl
    exact h.mem_spans loop hm

end Layout

end Snippet
