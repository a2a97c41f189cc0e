import Snippet.Proofs.Boundaries
import Snippet.Proofs.LoopQuestions
import Snippet.Proofs.LoopReach
import Snippet.Proofs.Marks
import Snippet.Proofs.Masking
import Snippet.Proofs.PrintCalls

/-!
# Headers in a row

A loop whose body is a loop whose body is a loop, and so on, without a brace: each header makes the
search for the end of the first loop one call deeper (`statementDepth_headed`), so that with enough
of them no stack suffices (`not_isShallow_row`).

The snippet of such loops passes the checks of its form, neither prints nor reads, and does not
speak of Fibonacci numbers; so the first thing that is asked about it is how deep its loops are
nested (`measuresIn_row`).
-/

namespace Snippet

open Pattern Place

variable {left gap inside : Text}

/-! ### Frames of headers -/

section

variable {s : String} (hs : s ∈ loopWords) (hb : Bracket.round.Balanced inside)
include hs hb

theorem loopFrames_headed (left gap right : Text) :
    loopFrames (matchOf left (s.toList ++ (gap ++ ['('])) (inside ++ ')' :: right)) =
      statementDepth (between (left ++ headerText s gap inside) right) := by
  obtain ⟨hdo, hclose⟩ := afterCloser?_headed hs hb left gap right
  rw [loopFrames, hdo, hclose]
  rfl

/-- **A header takes a frame.** -/
theorem statementDepth_headed (hg : ∀ c ∈ gap, isBlank c = true)
    (hl : left.getLast?.any isWord = false) (right : Text) :
    statementDepth (between left (headerText s gap inside ++ right)) =
      statementDepth (between (left ++ headerText s gap inside) right) + 1 := by
  have hmatch := @matchAt?_headed (left ++ []) gap s hs (by rwa [List.append_nil]) hg
    (inside ++ ')' :: right)
  obtain ⟨hstart, c, rest, hcons, hc⟩ := @skipBlanks_header left _ [] _ (by simp) hmatch
  rw [← hstart] at hmatch
  have hrest : (skipBlanks (between left
      ([] ++ (s.toList ++ (gap ++ ['(']) ++ (inside ++ ')' :: right))))).rest = c :: rest := by
    rw [hstart, rest_between, hcons]
  have hdepth := statementDepth_of_header hrest hc hmatch
  rwa [loopFrames_headed hs hb, List.append_nil, List.nil_append, ← headerText_append] at hdepth

end

/-! ### The snippet -/

/-- Loops each of which is the body of the one in front of it, and a way out of the innermost
one. -/
def rowOfLoops : Nat → Text
  | 0 => "break;".toList
  | count + 1 => "while(x)".toList ++ rowOfLoops count

theorem mem_row {count : Nat} {c : Char} (h : c ∈ rowOfLoops count) :
    c ∈ "while(x)break;".toList := by
  induction count with
  | zero => exact List.mem_append_right "while(x)".toList h
  | succ count ih =>
    rcases List.mem_append.mp h with h | h
    · exact List.mem_append_left "break;".toList h
    · exact ih h

theorem lt_statementDepth_row (count : Nat) (hl : left.getLast?.any isWord = false) :
    count < statementDepth (between left (rowOfLoops count)) := by
  induction count generalizing left with
  | zero => exact statementDepth_pos (between left (rowOfLoops 0))
  | succ count ih =>
    have hw : "while" ∈ loopWords := by decide
    have hx : Bracket.round.Balanced "x".toList := by decide
    have hrow : rowOfLoops (count + 1) = headerText "while" [] "x".toList ++ rowOfLoops count := rfl
    have hl' : (left ++ headerText "while" [] "x".toList).getLast?.any isWord = false := by
      rw [List.getLast?_append_of_ne_nil left (by decide)]
      decide
    have hdepth :=
      @statementDepth_headed left [] "x".toList "while" hw hx (by simp) hl (rowOfLoops count)
    have hlt := ih hl'
    rw [← hrow] at hdepth
    omega

theorem mask_row (language : Language) (count : Nat) :
    language.mask (rowOfLoops count) = rowOfLoops count := by
  have hplain : ∀ c ∈ "while(x)break;".toList, isPlain c = true := by decide
  exact language.mask_eq_self fun c hc => hplain c (mem_row hc)

theorem isBlankText_row (count : Nat) : Text.isBlankText (rowOfLoops (count + 1)) = false :=
  rfl

/-- **No stack suffices for a row of loops that is long enough.** -/
theorem not_isShallow_row {language : Language} (hb : language.usesBraces = true)
    {frames count : Nat} (h : frames ≤ count) :
    ¬ language.IsShallow frames (rowOfLoops (count + 1)) := by
  intro hs
  have hheader : rowOfLoops (count + 1) =
      ("while".toList ++ ([] ++ ['('])) ++ ("x".toList ++ ')' :: rowOfLoops count) := rfl
  have hw : "while" ∈ loopWords := by decide
  have hx : Bracket.round.Balanced "x".toList := by decide
  have hmatch := @matchAt?_headed [] [] "while" hw rfl (by simp)
    ("x".toList ++ ')' :: rowOfLoops count)
  have hmem : matchOf [] ("while".toList ++ ([] ++ ['('])) ("x".toList ++ ')' :: rowOfLoops count) ∈
      loopHeader.matchesIn (language.mask (rowOfLoops (count + 1))) := by
    rw [mask_row, hheader, matchesIn_eq_matchesAfter, matchesAfter_of_match hmatch rfl (by simp)]
    exact List.mem_cons_self
  have hle := hs hb _ hmem
  rw [loopFrames_headed hw hx] at hle
  have hlt := @lt_statementDepth_row ([] ++ headerText "while" [] "x".toList) count (by decide)
  omega

theorem lacks_row {options : List Text}
    (h : Text.Lacks "while(x)".toList options) (h' : Text.Lacks "break;".toList options)
    (count : Nat) : (rowOfLoops count).Lacks options := by
  induction count with
  | zero => exact h'
  | succ count ih => exact h.append ih (Or.inl (by decide))

section

variable {pattern : Pattern} (hw : 0 < pattern.width)
  (hp : ∀ c ∈ "while(x)break;".toList, pattern.mayStart c = false)
include hw hp

theorem matchesIn_row_eq_nil (count : Nat) : pattern.matchesIn (rowOfLoops count) = [] := by
  rw [matchesIn_eq_matchesAfter]
  exact matchesAfter_eq_nil (avoids_of_mayStart hw fun c hc => hp c (mem_row hc))

theorem occursIn_row_eq_false (count : Nat) : pattern.occursIn (rowOfLoops count) = false := by
  rw [← Bool.not_eq_true, occursIn_iff_matchesIn hw, matchesIn_row_eq_nil hw hp]
  exact fun h => h rfl

end

theorem exists_row_eq (count : Nat) : ∃ headers, rowOfLoops count = headers ++ "break;".toList ∧
    headers.getLast?.any isWord = false := by
  induction count with
  | zero => exact ⟨[], rfl, rfl⟩
  | succ count ih =>
    obtain ⟨headers, hrow, hl⟩ := ih
    have hrow' : rowOfLoops (count + 1) = "while(x)".toList ++ headers ++ "break;".toList := by
      rw [List.append_assoc, ← hrow]
      rfl
    refine ⟨"while(x)".toList ++ headers, hrow', ?_⟩
    cases headers with
    | nil => rfl
    | cons c more => rwa [List.getLast?_append_of_ne_nil _ (List.cons_ne_nil c more)]

/-! ### What is said of the snippet -/

namespace Language

theorem hasRecursiveFibonacci_row (language : Language) (count : Nat) :
    language.hasRecursiveFibonacci (rowOfLoops count) = false := by
  rw [hasRecursiveFibonacci, mentionsFibonacci, mask_row,
    occursIn_row_eq_false (by decide) (by decide)]
  rfl

/-- A row of loops passes the checks of its form, since its innermost loop is left. -/
theorem diagnose_row (requireMain : Bool) (count : Nat) :
    javascript.diagnose requireMain (rowOfLoops count) = none := by
  have hrules : (FormRule.standard requireMain).filter (javascript ∈ ·.languages) =
      [.braceBalance, .unboundedLoop] := by
    cases requireMain <;> decide
  have hopen : (rowOfLoops count).count '\x7b' = 0 :=
    List.count_eq_zero_of_not_mem fun h => absurd (mem_row h) (by decide)
  have hclose : (rowOfLoops count).count '\x7d' = 0 :=
    List.count_eq_zero_of_not_mem fun h => absurd (mem_row h) (by decide)
  have hexit : FormRule.loopExit.occursIn (rowOfLoops count) = true := by
    obtain ⟨left, hrow, hl⟩ := exists_row_eq count
    have hfits : (keyword "break").Fits left "break".toList [';'] [] [] :=
      fits_keyword (by decide) (by decide) hl rfl
    rw [hrow]
    exact occursIn_of_fits (fits_firstOf.mpr ⟨_, by simp, hfits⟩)
  rw [diagnose, hrules, mask_row]
  simp [List.findSome?, FormRule.check, hopen, hclose, hexit]

theorem literalOutput?_row (count : Nat) : javascript.literalOutput? (rowOfLoops count) = none := by
  have hmatches : (PrintCall.callPattern .consoleLog).matchesIn (rowOfLoops count) = [] :=
    matchesIn_row_eq_nil (by decide) (by decide) count
  have hcalls : javascript.printCalls (rowOfLoops count) = [] := by
    simp [printCalls, printCallsByRoutine, routines, PrintCall.ofRoutine, mask_row, hmatches]
  rw [literalOutput?, hcalls]
  rfl

/-- **The first thing that is asked about a row of loops is how deep they are nested.** -/
theorem measuresIn_row (count : Nat) :
    Detector.MeasuresIn Detector.standard javascript (rowOfLoops count) := by
  refine Detector.measuresIn_standard_iff.mpr ?_
  simp only [List.forall_mem_cons, List.not_mem_nil, IsEmpty.forall_iff, implies_true, and_true]
  refine ⟨?_, ?_, ?_⟩
  · refine hasBlockingInput_javascript ?_
    rw [mask_row]
    exact lacks_row (by decide) (by decide) count
  · rw [Detector.recognises, literalOutput?_row]
    rfl
  · rw [Detector.recognises, hasFibonacciShape, mentionsFibonacci, mask_row,
      occursIn_row_eq_false (by decide) (by decide)]
    rfl

end Language

end Snippet
