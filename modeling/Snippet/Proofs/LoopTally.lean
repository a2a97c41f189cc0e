import Snippet.Proofs.LiteralInside
import Snippet.Proofs.SpanNesting

/-!
# Depth and number of loops

The deepest nesting of loops and their number are found by different means, but they fit together
for every text, however malformed (`Language.loops_tallied`): **the nesting is at most the number,
and there is a nesting exactly where there is a loop**.

* By indentation, a line adds to the number whatever it adds to the open loops and to the nesting
  (`Indentation.Tallied.line`).  The word of a header is a clause as well and is taken off the
  clauses of its line, which leaves no debt, since it is one of them (`length_matchesIn_pos`).
* By braces, a loop is nested in reaches that start in front of it, and its own reach is none of
  these (`nesting_le_length`).
-/

namespace Snippet

open Pattern

/-! ### Loops by indentation -/

namespace Indentation

variable {state : Indentation}

/-- What the numbers of a state say about each other: every open loop has been counted, and so has
every level of the nesting, and where a loop has been counted there is a nesting. -/
structure Tallied (state : Indentation) : Prop where
  length_openLoops_le : state.openLoops.length ≤ state.count
  depth_le : state.depth ≤ state.count
  depth_pos : 0 < state.count → 0 < state.depth

theorem tallied_start : start.Tallied := ⟨Nat.le_refl 0, Nat.le_refl 0, id⟩

/-- **A line keeps the tally.** The loops that it closes stay counted, and those that it opens are
counted and nested at once. -/
theorem Tallied.line (h : state.Tallied) (text : Text) : (state.line text).Tallied := by
  obtain ⟨hopen, hle, hpos⟩ := h
  have hkept : (state.enclosing (Text.indent text)).length ≤ state.count :=
    (List.dropWhile_sublist _).length_le.trans hopen
  rw [line_eq_headText?]
  by_cases ht : (Text.trim text).isEmpty = true
  · rw [if_pos ht]
    exact ⟨hopen, hle, hpos⟩
  · rw [if_neg ht]
    cases headText? (Text.trim text) with
    | none => constructor <;> dsimp only <;> omega
    | some head => constructor <;> simp only [List.length_cons] <;> omega

/-- **The lines of a mask keep the tally.** -/
theorem tallied_ofMask (mask : Text) : (ofMask mask).Tallied := by
  have hfold : ∀ (lines : List Text) (state : Indentation), state.Tallied →
      (lines.foldl line state).Tallied := by
    intro lines
    induction lines with
    | nil => exact fun _ h => h
    | cons text lines ih => exact fun state h => ih _ (h.line text)
  exact hfold _ start tallied_start

end Indentation

/-! ### Loops by braces -/

section

variable {spans : List (Nat × Nat)}

/-- **A loop is nested in other loops only**, whatever their reaches are. -/
theorem nesting_le_length {span : Nat × Nat} (h : span ∈ spans) :
    nesting spans span.1 ≤ spans.length := by
  have hself : ¬ (span.1 < span.1 && span.1 < span.2) = true := by simp
  exact List.length_filter_lt_length_iff_exists.mpr ⟨span, h, hself⟩

theorem deepest_le_length (spans : List (Nat × Nat)) :
    (spans.map fun span => nesting spans span.1).foldl max 0 ≤ spans.length := by
  rw [List.foldl_max, Nat.zero_max]
  cases hmax : (spans.map fun span => nesting spans span.1).max? with
  | none => exact Nat.zero_le _
  | some deepest =>
    obtain ⟨span, hs, rfl⟩ := List.mem_map.mp (List.max?_mem hmax)
    exact nesting_le_length hs

theorem deepest_pos (h : spans ≠ []) :
    0 < (spans.map fun span => nesting spans span.1).foldl max 0 := by
  obtain ⟨span, more, rfl⟩ := List.exists_cons_of_ne_nil h
  rw [List.map_cons, List.foldl_cons, List.foldl_max]
  have hone : 0 < nesting (span :: more) span.1 := Nat.succ_pos _
  omega

end

/-! ### Loops of a snippet -/

namespace Language

/-- **The nesting of loops fits their number.** The nesting is at most the number, and both are zero
together; so there is a loop exactly where one is counted, and loops within loops are at least two.
What is taken off the clauses of a line for its header is one of them. -/
theorem loops_tallied (language : Language) (code : Text) :
    language.loopDepth code ≤ language.loopCount code ∧
      (language.loopDepth code = 0 ↔ language.loopCount code = 0) ∧
      (language.hasLoop code = true ↔ 1 ≤ language.loopCount code) ∧
      (language.hasNestedLoops code = true → 2 ≤ language.loopCount code) ∧
      ∀ line head, loopLine.matchAt? (.start line) = some head →
        Text.occurs "for".toList head.text = true → 1 ≤ (forWord.matchesIn line).length := by
  have hle : language.loopDepth code ≤ language.loopCount code := by
    rw [loopDepth, loopCount, loopDepthOfMask, loopCountOfMask]
    split
    · exact deepest_le_length _
    · exact (Indentation.tallied_ofMask _).depth_le
  have hpos : 0 < language.loopCount code → 0 < language.loopDepth code := by
    rw [loopDepth, loopCount, loopDepthOfMask, loopCountOfMask]
    split
    · exact fun h => deepest_pos (List.ne_nil_of_length_pos h)
    · exact (Indentation.tallied_ofMask _).depth_pos
  refine ⟨hle, by omega, ?_, fun h => ?_, fun line head hm ho => ?_⟩
  · rw [hasLoop, decide_eq_true_iff]
    omega
  · exact (of_decide_eq_true h).trans hle
  · exact Indentation.length_matchesIn_pos (by rw [Indentation.headText?, hm]; rfl) ho

end Language

end Snippet
