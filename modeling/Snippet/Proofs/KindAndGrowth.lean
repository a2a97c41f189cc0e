import Snippet.Proofs.Deciding

/-!
# The kind of a snippet and its growth

Two chains look at a snippet without knowing of each other: the detectors tell what kind of program
it is, and the rules of growth tell how its cost grows.  `classify_consistent` says that they do not
contradict each other.  What they share is the order in which they ask: both put the Fibonacci
shapes ahead of the loops, and nested loops ahead of single ones.
-/

namespace Snippet

/-- A kind of program and a profile of growth do not contradict each other. -/
structure Consistent (kind : Case) (profile : GrowthProfile) : Prop where
  /-- Exponential growth is only found in what may be a Fibonacci program. -/
  exponential : profile.time.worst = .exponential →
    kind ∈ [Case.blockingInput, .literalOutput, .fibonacci]
  /-- A program that sorts has nested loops. -/
  sorting : kind ∈ [Case.bubbleSort, .selectionSort] →
    profile ∉ [GrowthRule.fibonacciRecursion.profile, GrowthRule.singleLoop.profile, .constant]
  /-- A program that loops is not constant. -/
  loop : kind = .loop → profile ≠ .constant
  /-- A program that recurses, or in which nothing is found, has no loops. -/
  straight : kind ∈ [Case.recursion, .default] →
    profile ∉ [GrowthRule.fibonacciRecursion.profile, GrowthRule.nestedLoops.profile,
      GrowthRule.singleLoop.profile]

namespace GrowthRule

variable {rule : GrowthRule} {language : Language} {code : Text}

theorem growthProfile_ne_of_not_applies (h : ¬ rule.applies language code = true) :
    growthProfile standard language code ≠ rule.profile := by
  intro hp
  exact h (growthProfile_eq_profile_iff.mp hp).holds

theorem growthProfile_ne_of_earlier {other : GrowthRule}
    (hm : other ∈ standard.takeWhile (· ≠ rule)) (h : other.applies language code = true) :
    growthProfile standard language code ≠ rule.profile := by
  intro hp
  exact (growthProfile_eq_profile_iff.mp hp).not_holds hm h

theorem growthProfile_ne_constant (h : rule.applies language code = true) :
    growthProfile standard language code ≠ .constant := by
  intro hp
  rw [growthProfile_eq_constant_iff.mp hp rule] at h
  cases h

end GrowthRule

namespace Detector

variable {language : Language} {code : Text}

theorem not_recursive_of_not_fibonacci (h : ¬ fibonacci.recognises language code = true) :
    ¬ GrowthRule.fibonacciRecursion.applies language code = true := by
  intro hr
  exact h (Language.hasFibonacciShape_of_recursive hr)

theorem hasNestedLoops_of_sorting {detector : Detector}
    (hd : detector ∈ [bubbleSort, selectionSort])
    (h : detector.recognises language code = true) : language.hasNestedLoops code = true := by
  rcases List.mem_pair.mp hd with rfl | rfl
  · rw [recognises, Bool.and_assoc, Bool.and_eq_true] at h
    exact h.1
  · rw [recognises, Bool.and_eq_true] at h
    exact h.1

/-- The detectors of Fibonacci programs and of loops have both been asked in vain. -/
theorem straight_of_not_recognised (hf : ¬ fibonacci.recognises language code = true)
    (hl : ¬ loop.recognises language code = true) :
    growthProfile GrowthRule.standard language code ∉
      [GrowthRule.fibonacciRecursion.profile, GrowthRule.nestedLoops.profile,
        GrowthRule.singleLoop.profile] := by
  have hnested : ¬ GrowthRule.nestedLoops.applies language code = true := by
    intro hn
    exact hl (Language.hasLoop_of_hasNestedLoops hn)
  have hsingle : ¬ GrowthRule.singleLoop.applies language code = true := hl
  intro hm
  simp only [List.mem_cons, List.not_mem_nil, or_false] at hm
  rcases hm with hm | hm | hm
  · exact GrowthRule.growthProfile_ne_of_not_applies (not_recursive_of_not_fibonacci hf) hm
  · exact GrowthRule.growthProfile_ne_of_not_applies hnested hm
  · exact GrowthRule.growthProfile_ne_of_not_applies hsingle hm

/-- Every detector but that for Fibonacci programs and the two asked first is asked behind it. -/
theorem fibonacci_mem_takeWhile {detector : Detector}
    (h : detector.case ∉ [Case.blockingInput, .literalOutput, .fibonacci]) :
    fibonacci ∈ standard.takeWhile (· ≠ detector) := by
  revert h
  cases detector <;> decide

/-- A snippet that sorts does not grow as what has no nested loops. -/
theorem not_mem_of_sorting {detector : Detector} (hd : detector ∈ [bubbleSort, selectionSort])
    (h : detector.DecidesOn language code) :
    growthProfile GrowthRule.standard language code ∉
      [GrowthRule.fibonacciRecursion.profile, GrowthRule.singleLoop.profile, .constant] := by
  have hbehind : fibonacci ∈ standard.takeWhile (· ≠ detector) := by
    revert hd
    cases detector <;> decide
  have hrec := not_recursive_of_not_fibonacci (h.not_holds hbehind)
  have hnested : GrowthRule.nestedLoops.applies language code = true :=
    hasNestedLoops_of_sorting hd h.holds
  intro hm
  simp only [List.mem_cons, List.not_mem_nil, or_false] at hm
  rcases hm with hm | hm | hm
  · exact GrowthRule.growthProfile_ne_of_not_applies hrec hm
  · exact GrowthRule.growthProfile_ne_of_earlier (by decide) hnested hm
  · exact GrowthRule.growthProfile_ne_constant hnested hm

theorem DecidesOn.consistent {detector : Detector} (h : detector.DecidesOn language code) :
    Consistent detector.case (growthProfile GrowthRule.standard language code) where
  exponential hw := by
    have hrec := GrowthRule.worst_eq_exponential_iff.mp hw
    by_contra hk
    exact h.not_holds (fibonacci_mem_takeWhile hk) (Language.hasFibonacciShape_of_recursive hrec)
  sorting hk := by
    refine not_mem_of_sorting ?_ h
    revert hk
    cases detector <;> decide
  loop hk := by
    obtain rfl : detector = .loop := by
      revert hk
      cases detector <;> decide
    have hsingle : GrowthRule.singleLoop.applies language code = true := h.holds
    exact GrowthRule.growthProfile_ne_constant hsingle
  straight hk := by
    obtain rfl : detector = .recursion := by
      revert hk
      cases detector <;> decide
    exact straight_of_not_recognised (h.not_holds (by decide)) (h.not_holds (by decide))

theorem consistent_default (h : ∀ detector : Detector, detector.recognises language code = false) :
    Consistent .default (growthProfile GrowthRule.standard language code) where
  exponential hw := by
    have hrec := GrowthRule.worst_eq_exponential_iff.mp hw
    have hshape : fibonacci.recognises language code = true :=
      Language.hasFibonacciShape_of_recursive hrec
    rw [h fibonacci] at hshape
    cases hshape
  sorting hk := absurd hk (by decide)
  loop hk := by cases hk
  straight _ :=
    straight_of_not_recognised (by rw [h]; exact Bool.false_ne_true)
      (by rw [h]; exact Bool.false_ne_true)

/-- **What the detectors find and what the rules of growth say do not contradict each other.** -/
theorem classify_consistent {found : Classification}
    (h : classify standard language code = .ok found) :
    Consistent found.finding.case (growthProfile GrowthRule.standard language code) := by
  rcases classify_cases h with ⟨detector, hd, hc⟩ | ⟨hn, hc⟩
  · rw [hc]
    exact hd.consistent
  · rw [hc]
    exact consistent_default hn

/-- Two nested loops with a variable for swapping make a program that sorts, while the word for
stored results makes its growth linear. -/
theorem classify_consistent_memo :
    classify standard .python "for i in memo:\n for j in memo:\n  temp = i".toList =
        .ok ⟨some .selectionSort, .selectionSort⟩ ∧
      Consistent .selectionSort (growthProfile GrowthRule.standard .python
        "for i in memo:\n for j in memo:\n  temp = i".toList) := by
  have hf : standard.find? (·.recognises .python
      "for i in memo:\n for j in memo:\n  temp = i".toList) = some .selectionSort := by
    decide +kernel
  have h : classify standard .python "for i in memo:\n for j in memo:\n  temp = i".toList =
      .ok ⟨some .selectionSort, .selectionSort⟩ := by
    rw [classify, hf]
    rfl
  exact ⟨h, classify_consistent h⟩

end Detector

end Snippet
