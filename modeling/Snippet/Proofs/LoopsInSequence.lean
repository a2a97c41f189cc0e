import Snippet.Proofs.HiddenText
import Snippet.Proofs.IndentedProgram
import Snippet.Proofs.VisibleText

/-!
# Loops one text after the other

Where blocks are told by indentation, a text that starts at the margin is not nested in anything
that stands in front of it.  So the loops of two texts, one after the other, are the loops of each
of them, whatever loops the first text leaves open (`loops_append`).

A line reads the loops that are open, and nothing else of what is known, to say what is open behind
it; the deepest nesting and the number of loops are only carried along.  So what is known from
earlier lines can be put in front of a state (`Indentation.behind`) before or behind any line, which
is `line_behind` for one line and `foldl_line_behind` for a stretch of lines.  A line at the margin
closes all that is open, which makes such a state of any other one (`line_eq_behind`).
-/

namespace Snippet

/-! ### The lines of two texts -/

namespace Text

variable {front rest : Text}

/-- Nothing stands in front of the place, or a line feed. -/
def EndsInLineFeed (front : Text) : Prop := front = [] ∨ front.getLast? = some '\n'

theorem EndsInLineFeed.tail {c : Char} (h : EndsInLineFeed (c :: front)) :
    front = [] ∧ c = '\n' ∨ front ≠ [] ∧ EndsInLineFeed front := by
  rcases h with h | h
  · cases h
  · cases front with
    | nil => exact Or.inl ⟨rfl, by simpa using h⟩
    | cons d front => exact Or.inr ⟨by simp, Or.inr (by simpa using h)⟩

theorem lines_ne_nil (h : front ≠ []) : lines front ≠ [] := by
  intro hl
  have hf := flatten_lines front
  rw [hl] at hf
  exact h hf.symm

/-- **Behind a line feed the lines start anew.** -/
theorem lines_append (h : EndsInLineFeed front) (rest : Text) :
    lines (front ++ rest) = lines front ++ lines rest := by
  fun_induction lines front with
  | case1 => rfl
  | case2 front ih =>
    have htail : EndsInLineFeed front := by
      rcases h.tail.resolve_left (by simp) with ⟨-, h⟩
      rcases h.tail with ⟨rfl, -⟩ | ⟨-, h⟩
      · exact Or.inl rfl
      · exact h
    rw [List.cons_append, List.cons_append, lines, ih htail, List.cons_append]
  | case3 c front hpair hc ih =>
    have hpair' : ∀ more, c = '\r' → front ++ rest = '\n' :: more → False := by
      rintro more rfl he
      rcases h.tail with ⟨-, hcr⟩ | ⟨hn, -⟩
      · exact absurd hcr (by decide)
      · obtain ⟨d, front, rfl⟩ := List.exists_cons_of_ne_nil hn
        exact hpair front rfl (by rw [(List.cons.inj he).1])
    have htail : EndsInLineFeed front := by
      rcases h.tail with ⟨rfl, -⟩ | ⟨-, h⟩
      · exact Or.inl rfl
      · exact h
    rw [List.cons_append, lines, if_pos hc, ih htail, List.cons_append]
    exact hpair'
  | case4 c front hpair hc hnil ih =>
    -- the text would end in this character
    rcases h.tail with ⟨-, rfl⟩ | ⟨hn, -⟩
    · exact absurd rfl hc
    · exact absurd hnil (lines_ne_nil hn)
  | case5 c front hpair hc line more hlines ih =>
    have hn : front ≠ [] := by
      rintro rfl
      cases hlines
    have hcr : c ≠ '\r' := ne_carriageReturn (by simpa using hc)
    have htail := (h.tail.resolve_left (fun he => hn he.1)).2
    rw [List.cons_append, lines, if_neg hc, ih htail, hlines]
    · rfl
    · intro _ hr
      exact absurd hr hcr

/-- The first line that is not blank starts at the margin, if there is one. -/
def StartsAtMargin (text : Text) : Prop :=
  ∀ line, (lines text).find? (fun line => !isBlankText line) = some line → indent line = 0

instance (text : Text) : Decidable text.StartsAtMargin :=
  match h : (lines text).find? fun line => !isBlankText line with
  | none => isTrue fun line hl => by rw [h] at hl; cases hl
  | some line =>
    decidable_of_iff (indent line = 0)
      ⟨fun hi other ho => by rw [h] at ho; cases ho; exact hi, fun ht => ht line h⟩

end Text

/-! ### What earlier lines leave -/

namespace Indentation

/-- A state with the depth and the number of loops of earlier lines in front of it. -/
def behind (state earlier : Indentation) : Indentation :=
  ⟨state.openLoops, max earlier.depth state.depth, earlier.count + state.count⟩

/-- **A line reads nothing but the open loops.** -/
theorem line_behind (state earlier : Indentation) (text : Text) :
    (state.behind earlier).line text = (state.line text).behind earlier := by
  rw [line, line]
  by_cases ht : (Text.trim text).isEmpty = true
  · rw [if_pos ht, if_pos ht]
  · rw [if_neg ht, if_neg ht]
    cases loopLine.matchAt? (.start (Text.trim text)) with
    | none => simp only [behind, Nat.max_assoc, Nat.add_assoc]
    | some head => simp only [behind, Nat.max_assoc, Nat.add_assoc]

theorem foldl_line_behind (state earlier : Indentation) (lines : List Text) :
    lines.foldl line (state.behind earlier) = (lines.foldl line state).behind earlier := by
  induction lines generalizing state with
  | nil => rfl
  | cons text lines ih => rw [List.foldl_cons, List.foldl_cons, line_behind, ih]

/-- **A line at the margin closes every loop.** -/
theorem line_eq_behind (earlier : Indentation) {text : Text} (hb : Text.isBlankText text = false)
    (hi : Text.indent text = 0) : earlier.line text = (start.line text).behind earlier := by
  have ht : ¬ (Text.trim text).isEmpty = true := by
    rw [List.isEmpty_iff, Text.trim_eq_nil_iff, hb]
    decide
  have hclosed : ∀ loops : List Nat, loops.dropWhile (0 ≤ ·) = [] := by
    intro loops
    simp [List.dropWhile_eq_nil_iff]
  rw [line, line, if_neg ht, if_neg ht, hi]
  simp only [hclosed]
  cases loopLine.matchAt? (.start (Text.trim text)) with
  | none => simp [behind, start]
  | some head =>
    simp only [behind, start, Nat.zero_max, Nat.zero_add, Nat.add_assoc]

/-- **Lines that start at the margin are not nested in anything in front of them.** -/
theorem foldl_line_of_margin (earlier : Indentation) {lines : List Text}
    (h : ∀ line, lines.find? (fun line => !Text.isBlankText line) = some line →
      Text.indent line = 0) :
    let state := lines.foldl line earlier
    let alone := lines.foldl line start
    state.depth = max earlier.depth alone.depth ∧ state.count = earlier.count + alone.count := by
  induction lines with
  | nil => exact ⟨(Nat.max_zero _).symm, rfl⟩
  | cons text lines ih =>
    cases hb : Text.isBlankText text with
    | true =>
      have hall := List.all_eq_true.mp hb
      rw [List.foldl_cons, List.foldl_cons, line_of_blank _ hall, line_of_blank _ hall]
      refine ih fun line hl => h line ?_
      rwa [List.find?_cons_of_neg (by simp [hb])]
    | false =>
      have hi := h text (List.find?_cons_of_pos (by simp [hb]))
      rw [List.foldl_cons, List.foldl_cons, line_eq_behind earlier hb hi, foldl_line_behind]
      exact ⟨rfl, rfl⟩

end Indentation

/-! ### The loops of two texts -/

namespace Language

theorem endsInLineFeed_mask {language : Language} {front : Text} (h : front.EndsInLineFeed) :
    (language.mask front).EndsInLineFeed := by
  rcases h with rfl | h
  · exact Or.inl (mask_nil language)
  · obtain ⟨before, rfl⟩ := List.getLast?_eq_some_iff.mp h
    have hshown := List.rel_reverse (@forall₂_mask language (before ++ ['\n']))
    rw [List.reverse_append] at hshown
    obtain ⟨d, more, hd, -, he⟩ := List.forall₂_cons_left_iff.mp hshown
    refine Or.inr ?_
    rw [List.getLast?_eq_head?_reverse, he, List.head?_cons]
    exact congrArg some (hd.resolve_right fun hfeed => hfeed.1 rfl)

/-- **A text that starts at the margin is a sequel**: its loops come on top of those in front of
it, and the deepest nesting is that of one of the two texts, whatever the first one leaves open. -/
theorem loops_append {front rest : Text} (hfront : front.EndsInLineFeed)
    (hcut : python.CutAt (front ++ rest) front.length)
    (hrest : (python.mask rest).StartsAtMargin) :
    python.loopDepth (front ++ rest) = max (python.loopDepth front) (python.loopDepth rest) ∧
      python.loopCount (front ++ rest) = python.loopCount front + python.loopCount rest := by
  have hlines : Text.lines (python.mask (front ++ rest)) =
      Text.lines (python.mask front) ++ Text.lines (python.mask rest) := by
    rw [mask_append hcut, Text.lines_append (endsInLineFeed_mask hfront)]
  simp only [loopDepth, loopCount, loopDepthOfMask, loopCountOfMask, usesBraces,
    Indentation.ofMask, hlines, List.foldl_append, Bool.false_eq_true, if_false]
  exact Indentation.foldl_line_of_margin _ hrest

/-- The first text leaves two loops open, the inner one without a body. -/
theorem loops_append_open :
    let front := "while x:\n  for i in a:\n".toList
    let rest := "\nfor k in c:\n  x = 1\n".toList
    python.loopDepth (front ++ rest) = max (python.loopDepth front) (python.loopDepth rest) ∧
      python.loopCount (front ++ rest) = python.loopCount front + python.loopCount rest := by
  refine loops_append (Or.inr (by decide)) (cutAt_of_plain (by decide) _) ?_
  rw [mask_eq_self python (by decide)]
  decide

end Language

end Snippet
