import Snippet.Complexity
import Snippet.Proofs.EnclosedLoops
import Snippet.Proofs.LinesBehind
import Snippet.Proofs.Masking
import Snippet.Proofs.Replacement

/-!
# The class around a snippet

In Java a snippet stands in the main method of a class.  Neither changes what is told of it: whether
it speaks of arrays, its loops, and its growth by any rules (`growth_inMain`), **whatever the
snippet is**, also if it leaves a bracket, a literal or a comment open.

* The mask of the whole is the opening of the class, the mask of the snippet, and what is shown of
  the end (`exists_mask_inMain`).  A literal or a comment that the snippet leaves open hides a part
  of the end.
* The opening ends in a line feed behind a brace, and the end consists of white space and closing
  braces (`EndsMain`).  A pattern that reads no opening brace and neither starts nor ends with a
  line feed finds in the whole what it finds in the snippet, as soon as it finds nothing in the
  opening (`LineBound.occursIn_inMain`).
* There is one mark of an array in the opening, the parameter of the main method.  It is taken away
  before arrays are looked for (`LineBound.replaceIn_inMain`).
* The loops are those of a text in an enclosing block (`encloses_main`).
-/

namespace Snippet

open Pattern Vocabulary

variable {pattern : Pattern} {shown : Text}

/-! ### A class with a main method -/

/-- A snippet in the main method of a class. -/
def inMain (code : Text) : Text :=
  "public class Main \x7b\n    public static void main(String[] args) \x7b\n".toList ++
    (code ++ "\n    \x7d\n\x7d\n".toList)

/-- The lines of the opening of a class and of its main method with some parameters, up to their
braces. -/
def openingLines (parameters : Text) : Text × Text :=
  ("public class Main ".toList,
    "\n    public static void main(".toList ++ (parameters ++ ") ".toList))

/-- The opening of a class and of its main method. -/
def mainOpening (parameters : Text) : Text :=
  (openingLines parameters).1 ++ '\x7b' :: ((openingLines parameters).2 ++ '\x7b' :: ['\n'])

/-- The parameter of a main method. -/
def mainParameter : Text := "String[] args".toList

/-- The end of the main method and of the class. -/
def mainEnd : Text := "\n    \x7d\n\x7d\n".toList

theorem inMain_eq (code : Text) : inMain code = mainOpening mainParameter ++ (code ++ mainEnd) :=
  congrArg (· ++ (code ++ mainEnd)) (by decide)

/-- A text that starts with a line feed and holds white space and closing braces only. -/
structure EndsMain (shown : Text) : Prop where
  head?_eq : shown.head? = some '\n'
  mem : ∀ c ∈ shown, c ∈ ['\n', ' ', '\x7d']

/-- **The mask of a snippet in a main method.** -/
theorem exists_mask_inMain (code : Text) : ∃ shown, EndsMain shown ∧
    Language.java.mask (inMain code) =
      mainOpening mainParameter ++ (Language.java.mask code ++ shown) := by
  obtain ⟨shown, hmask, hshown⟩ :=
    @Language.exists_mask_append_lineFeed .java code "    \x7d\n\x7d\n".toList
  have hend : ∀ c ∈ mainEnd, ∀ d, ShownAs c d → d ∈ ['\n', ' ', '\x7d'] := by
    rintro c hc d (rfl | ⟨-, rfl⟩)
    · revert d
      decide
    · decide
  refine ⟨shown, ⟨?_, fun d hd => ?_⟩, ?_⟩
  · obtain ⟨d, more, hd, -, rfl⟩ := List.forall₂_cons_left_iff.mp hshown
    rw [List.head?_cons, hd.resolve_right fun hne => hne.1 rfl]
  · obtain ⟨c, hc, hs⟩ := exists_of_mem_shown hshown hd
    exact hend c hc d hs
  · rw [inMain_eq, Language.mask_append_of_plain _ (by decide), ← hmask]
    rfl

theorem encloses_main (h : EndsMain shown) : Encloses (mainOpening mainParameter) shown where
  lacks := by decide
  getLast?_front := by decide
  closesBlocks := by
    have hend : ∀ c ∈ ['\n', ' ', '\x7d'], isBlank c = true ∨ c = '\x7d' := by decide
    exact fun c hc => hend c (h.mem c hc)
  head?_behind := h.head?_eq

/-! ### Patterns -/

/-- A pattern that can be looked for in the lines of a block on their own: it reads no opening
brace, it neither starts nor ends with a line feed, and a closing brace does not end it either. -/
structure LineBound (pattern : Pattern) : Prop where
  width_pos : 0 < pattern.width
  reads_brace : pattern.reads '\x7b' = false
  ignores : ∀ c ∈ ['\n', '\x7b'],
    pattern.ignoresBefore (some c) = true ∧ pattern.ignoresBehind (some c) = true
  mayStart_lineFeed : pattern.mayStart '\n' = false
  mayEnd : ∀ c ∈ ['\n', ' ', '\x7d'], pattern.mayEnd c = false

instance : Decidable (LineBound pattern) :=
  decidable_of_iff
    (0 < pattern.width ∧ pattern.reads '\x7b' = false ∧
      (∀ c ∈ ['\n', '\x7b'],
        pattern.ignoresBefore (some c) = true ∧ pattern.ignoresBehind (some c) = true) ∧
      pattern.mayStart '\n' = false ∧ ∀ c ∈ ['\n', ' ', '\x7d'], pattern.mayEnd c = false)
    ⟨fun ⟨hw, hr, hi, hs, he⟩ => ⟨hw, hr, hi, hs, he⟩,
      fun ⟨hw, hr, hi, hs, he⟩ => ⟨hw, hr, hi, hs, he⟩⟩

namespace LineBound

variable (h : LineBound pattern) (hs : EndsMain shown)

include h hs

/-- **A pattern finds in the whole what it finds in the snippet.** -/
theorem occursIn_inMain {parameters : Text}
    (hfirst : pattern.occursIn (openingLines parameters).1 = false)
    (hsecond : pattern.occursIn (openingLines parameters).2 = false) (mask : Text) :
    pattern.occursIn (mainOpening parameters ++ (mask ++ shown)) = pattern.occursIn mask := by
  obtain ⟨hl, hr⟩ := h.ignores '\x7b' (by decide)
  obtain ⟨hl', hr'⟩ := h.ignores '\n' (by decide)
  have hpad : pattern.occursIn (['\n'] ++ (mask ++ shown)) = pattern.occursIn mask :=
    @occursIn_pad pattern ['\n'] shown h.width_pos (by simpa using h.mayStart_lineFeed)
      (fun c hc => h.mayEnd c (hs.mem c hc)) hl' (by rw [hs.head?_eq]; exact hr') mask
  rw [mainOpening, List.append_assoc, List.cons_append, List.append_assoc, List.cons_append,
    occursIn_append_cons h.width_pos h.reads_brace hl hr, hfirst,
    occursIn_append_cons h.width_pos h.reads_brace hl hr, hsecond, hpad]
  rfl

/-- **What is replaced in the whole is replaced in the opening and in the snippet.** -/
theorem replaceIn_inMain {replacement parameters parameters' : Text}
    (hfirst : pattern.replaceIn replacement (openingLines parameters).1 =
      (openingLines parameters').1)
    (hsecond : pattern.replaceIn replacement (openingLines parameters).2 =
      (openingLines parameters').2) (mask : Text) :
    pattern.replaceIn replacement (mainOpening parameters ++ (mask ++ shown)) =
      mainOpening parameters' ++ (pattern.replaceIn replacement mask ++ shown) := by
  obtain ⟨hl, hr⟩ := h.ignores '\x7b' (by decide)
  obtain ⟨hl', hr'⟩ := h.ignores '\n' (by decide)
  have hpad : pattern.replaceIn replacement (['\n'] ++ (mask ++ shown)) =
      ['\n'] ++ (pattern.replaceIn replacement mask ++ shown) :=
    @replaceIn_pad pattern replacement ['\n'] shown h.width_pos (by simpa using h.mayStart_lineFeed)
      (fun c hc => h.mayEnd c (hs.mem c hc)) hl' (by rw [hs.head?_eq]; exact hr') mask
  rw [mainOpening, List.append_assoc, List.cons_append, List.append_assoc, List.cons_append,
    replaceIn_append_cons h.width_pos h.reads_brace hl hr, hfirst,
    replaceIn_append_cons h.width_pos h.reads_brace hl hr, hsecond, hpad]
  simp [mainOpening]

end LineBound

/-- The patterns that the rules for the growth look for, loops and arrays apart. -/
def growthPatterns : List Pattern :=
  [anyCase "fib", nMinus '1', nMinus '2', keyword "return", memoWords, anyKeyword ["dp"],
    anyStem "mid", anyKeyword ["left", "lo", "low"], anyKeyword ["right", "hi", "high"],
    anyCase "merge", anyCase "divide", anyCase "conquer", anyCase "greedy", anyCase "sort",
    anyStem "max", edge ++ firstOf [anyCase "pick", anyCase "select", anyCase "choose"]]

theorem lineBound_growthPatterns : ∀ pattern ∈ growthPatterns, LineBound pattern ∧
    pattern.occursIn (openingLines mainParameter).1 = false ∧
      pattern.occursIn (openingLines mainParameter).2 = false := by
  decide

theorem occursIn_mask_inMain (code : Text) : ∀ pattern ∈ growthPatterns,
    pattern.occursIn (Language.java.mask (inMain code)) =
      pattern.occursIn (Language.java.mask code) := by
  intro pattern hm
  obtain ⟨shown, hs, hmask⟩ := exists_mask_inMain code
  obtain ⟨hbound, hfirst, hsecond⟩ := lineBound_growthPatterns pattern hm
  rw [hmask, hbound.occursIn_inMain hs hfirst hsecond]

/-! ### What is told of a snippet -/

theorem hasArrayVocabulary_inMain (code : Text) :
    Language.java.hasArrayVocabulary (inMain code) = Language.java.hasArrayVocabulary code := by
  obtain ⟨shown, hs, hmask⟩ := exists_mask_inMain code
  have hparameter : LineBound entryParameter := by decide
  have hmarks : LineBound arrayMarks := by decide
  rw [Language.hasArrayVocabulary, hmask,
    @LineBound.replaceIn_inMain _ _ hparameter hs [' '] mainParameter [' '] (by decide) (by decide),
    hmarks.occursIn_inMain hs (by decide) (by decide), Language.hasArrayVocabulary]

theorem loopDepth_inMain (code : Text) :
    Language.java.loopDepth (inMain code) = Language.java.loopDepth code := by
  obtain ⟨shown, hs, hmask⟩ := exists_mask_inMain code
  rw [Language.loopDepth, hmask, (encloses_main hs).loopDepthOfMask rfl, Language.loopDepth]

theorem loopCount_inMain (code : Text) :
    Language.java.loopCount (inMain code) = Language.java.loopCount code := by
  obtain ⟨shown, hs, hmask⟩ := exists_mask_inMain code
  rw [Language.loopCount, hmask, (encloses_main hs).loopCountOfMask rfl, Language.loopCount]

theorem applies_inMain (code : Text) (rule : GrowthRule) :
    rule.applies .java (inMain code) = rule.applies .java code := by
  have hwords := occursIn_mask_inMain code
  simp only [growthPatterns, List.forall_mem_cons] at hwords
  obtain ⟨hfib, hone, htwo, hreturn, hmemo, hdp, hmid, hleft, hright, hmerge, hdivide, hconquer,
    hgreedy, hsort, hmax, hpick, -⟩ := hwords
  cases rule with
  | fibonacciRecursion =>
    simp only [GrowthRule.applies, Language.hasRecursiveFibonacci, Language.mentionsFibonacci,
      Language.hasFibonacciSubtraction, hfib, hone, htwo, hreturn]
  | memoization =>
    simp only [GrowthRule.applies, Language.hasMemoization, hmemo, hdp,
      hasArrayVocabulary_inMain]
  | binarySearch => simp only [GrowthRule.applies, Language.hasBinarySearch, hmid, hleft, hright]
  | divideAndConquer =>
    simp only [GrowthRule.applies, Language.hasDivideAndConquer, hmerge, hdivide, hconquer]
  | greedy =>
    simp only [GrowthRule.applies, Language.hasGreedyChoice, hgreedy, hsort, hmax, hpick]
  | nestedLoops =>
    simp only [GrowthRule.applies, Language.hasNestedLoops, loopDepth_inMain]
  | singleLoop => simp only [GrowthRule.applies, Language.hasLoop, loopDepth_inMain]

/-- **The class around a snippet changes nothing.** -/
theorem growth_inMain (code : Text) :
    Language.java.hasArrayVocabulary (inMain code) = Language.java.hasArrayVocabulary code ∧
      Language.java.loopDepth (inMain code) = Language.java.loopDepth code ∧
      Language.java.loopCount (inMain code) = Language.java.loopCount code ∧
      ∀ rules, growthProfile rules .java (inMain code) = growthProfile rules .java code := by
  refine ⟨hasArrayVocabulary_inMain code, loopDepth_inMain code, loopCount_inMain code, ?_⟩
  intro rules
  simp only [growthProfile, applies_inMain]

end Snippet
