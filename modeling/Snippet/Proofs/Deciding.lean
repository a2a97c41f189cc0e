import Mathlib.Tactic
import Snippet.Complexity
import Snippet.Finding

/-!
# Which rule decides

Detectors stand in a chain, and so do the rules of growth; in both the first one that applies
decides.  `Reached chain applies item` says that it is the turn of `item`: nothing ahead of it
applies.  `Decides chain applies item` says that `item` is the first one: it is reached, and it
applies.

* `find?_eq_find?_iff`: what is found depends on the items that are reached.
* `growthProfile_eq_profile_iff`, `growthProfile_eq_constant_iff`: the profile of a snippet tells
  which rule decided, since no two rules have the same profile.
* `worst_eq_exponential_iff` and its companions read the worst case in the same way.
* `classify_cases`: the kind of a snippet is that of the detector that decided.
-/

namespace Snippet

/-! ### The first of a chain -/

section

variable {α : Type} [DecidableEq α] {chain : List α} {applies applies' : α → Bool}
  {first item other : α}

/-- It is an item's turn in a chain: nothing ahead of it applies. -/
structure Reached (chain : List α) (applies : α → Bool) (item : α) : Prop where
  mem : item ∈ chain
  earlier : ∀ other ∈ chain.takeWhile (· ≠ item), applies other = false

/-- An item of a chain applies, and no item ahead of it does. -/
structure Decides (chain : List α) (applies : α → Bool) (item : α) : Prop
    extends Reached chain applies item where
  holds : applies item = true

theorem reached_cons : Reached (first :: chain) applies item ↔
    item = first ∨ (applies first = false ∧ Reached chain applies item) := by
  by_cases hne : first = item
  · refine iff_of_true ⟨by simp [hne], ?_⟩ (Or.inl hne.symm)
    simp [hne]
  · have htake : (first :: chain).takeWhile (· ≠ item) = first :: chain.takeWhile (· ≠ item) :=
      List.takeWhile_cons_of_pos (by simpa using hne)
    constructor
    · intro h
      have hear := h.earlier
      rw [htake, List.forall_mem_cons] at hear
      exact Or.inr ⟨hear.1, (List.mem_cons.mp h.mem).resolve_left (Ne.symm hne), hear.2⟩
    · rintro (rfl | ⟨hf, hr⟩)
      · exact absurd rfl hne
      · refine ⟨List.mem_cons_of_mem first hr.mem, ?_⟩
        rw [htake, List.forall_mem_cons]
        exact ⟨hf, hr.earlier⟩

/-- **The first item that applies decides.** -/
theorem find?_eq_some_iff_decides :
    chain.find? applies = some item ↔ Decides chain applies item := by
  induction chain with
  | nil =>
    constructor
    · intro h
      cases h
    · intro h
      exact absurd h.mem List.not_mem_nil
  | cons first chain ih =>
    by_cases hf : applies first = true
    · rw [List.find?_cons_of_pos hf, Option.some_inj]
      constructor
      · rintro rfl
        exact ⟨reached_cons.mpr (Or.inl rfl), hf⟩
      · intro h
        rcases reached_cons.mp h.toReached with rfl | ⟨hn, -⟩
        · rfl
        · rw [hf] at hn
          cases hn
    · rw [List.find?_cons_of_neg hf, ih]
      constructor
      · intro h
        exact ⟨reached_cons.mpr (Or.inr ⟨by rwa [Bool.not_eq_true] at hf, h.toReached⟩), h.holds⟩
      · intro h
        rcases reached_cons.mp h.toReached with rfl | ⟨-, hr⟩
        · exact absurd h.holds hf
        · exact ⟨hr, h.holds⟩

/-- **What is found changes exactly if an item whose turn it is does**; the items behind the one
that decides do not matter. -/
theorem find?_eq_find?_iff : chain.find? applies = chain.find? applies' ↔
    ∀ item, Reached chain applies item → applies item = applies' item := by
  induction chain with
  | nil =>
    refine iff_of_true rfl ?_
    intro item h
    exact absurd h.mem List.not_mem_nil
  | cons first chain ih =>
    have hturn : Reached (first :: chain) applies first := reached_cons.mpr (Or.inl rfl)
    cases hf : applies first with
    | true =>
      rw [List.find?_cons_of_pos hf]
      constructor
      · intro h item hr
        rcases reached_cons.mp hr with rfl | ⟨hn, -⟩
        · rw [hf, List.find?_some h.symm]
        · rw [hf] at hn
          cases hn
      · intro h
        have hf' : applies' first = true := by rw [← h first hturn, hf]
        rw [List.find?_cons_of_pos hf']
    | false =>
      rw [List.find?_cons_of_neg (by rw [hf]; decide)]
      cases hf' : applies' first with
      | true =>
        rw [List.find?_cons_of_pos hf']
        constructor
        · intro h
          rw [List.find?_some h] at hf
          cases hf
        · intro h
          have hsame := h first hturn
          rw [hf, hf'] at hsame
          cases hsame
      | false =>
        rw [List.find?_cons_of_neg (by rw [hf']; decide), ih]
        constructor
        · intro h item hr
          rcases reached_cons.mp hr with rfl | ⟨-, hr⟩
          · rw [hf, hf']
          · exact h item hr
        · intro h item hr
          exact h item (reached_cons.mpr (Or.inr ⟨hf, hr⟩))

theorem findSome?_eq_of_reached {β : Type} {answer answer' : α → Option β}
    (h : ∀ item, Reached chain (fun other => (answer other).isSome) item →
      answer item = answer' item) :
    chain.findSome? answer = chain.findSome? answer' := by
  induction chain with
  | nil => rfl
  | cons first chain ih =>
    have hfirst : answer first = answer' first := h first (reached_cons.mpr (Or.inl rfl))
    rw [List.findSome?_cons, List.findSome?_cons, ← hfirst]
    cases hf : answer first with
    | some found => rfl
    | none =>
      apply ih
      intro item hr
      exact h item (reached_cons.mpr (Or.inr ⟨by rw [hf]; rfl, hr⟩))

theorem Decides.not_holds (h : Decides chain applies item)
    (hm : other ∈ chain.takeWhile (· ≠ item)) : ¬ applies other = true := by
  rw [h.earlier other hm]
  exact Bool.false_ne_true

end

/-! ### Implications between shapes -/

namespace Language

variable {language : Language} {code : Text}

theorem hasLoop_of_hasNestedLoops (h : language.hasNestedLoops code = true) :
    language.hasLoop code = true := by
  rw [hasNestedLoops, decide_eq_true_eq] at h
  rw [hasLoop, decide_eq_true_eq]
  omega

theorem hasFibonacciShape_of_recursive (h : language.hasRecursiveFibonacci code = true) :
    language.hasFibonacciShape code = true := by
  rw [hasRecursiveFibonacci, Bool.and_eq_true, Bool.and_eq_true] at h
  obtain ⟨⟨hm, hs⟩, -⟩ := h
  rw [hasFibonacciShape, hm, hs]
  rfl

end Language

/-! ### The growth of a snippet -/

namespace GrowthRule

variable {rule rule' : GrowthRule} {language : Language} {code : Text}

theorem mem_standard (rule : GrowthRule) : rule ∈ standard := by
  cases rule <;> decide

/-- The rule decides on the growth of a snippet. -/
abbrev DecidesOn (rule : GrowthRule) (language : Language) (code : Text) : Prop :=
  Decides standard (·.applies language code) rule

/-- **No two rules have the same profile.** -/
theorem profile_injective (h : rule.profile = rule'.profile) : rule = rule' := by
  have ht : rule.time = rule'.time := congrArg GrowthProfile.time h
  have hs : rule.space = rule'.space := congrArg GrowthProfile.space h
  revert ht hs
  cases rule <;> cases rule' <;> decide

theorem profile_ne_constant (rule : GrowthRule) : rule.profile ≠ .constant := by
  intro h
  have ht : rule.time = .uniform .constant := congrArg GrowthProfile.time h
  revert ht
  cases rule <;> decide

theorem growthProfile_cases (language : Language) (code : Text) :
    (∃ rule : GrowthRule, rule.DecidesOn language code ∧
      growthProfile standard language code = rule.profile) ∨
    ((∀ rule : GrowthRule, rule.applies language code = false) ∧
      growthProfile standard language code = .constant) := by
  cases hf : standard.find? (·.applies language code) with
  | some rule => exact Or.inl ⟨rule, find?_eq_some_iff_decides.mp hf, by rw [growthProfile, hf]⟩
  | none =>
    refine Or.inr ⟨?_, by rw [growthProfile, hf]⟩
    intro rule
    have hn := List.find?_eq_none.mp hf rule rule.mem_standard
    rwa [Bool.not_eq_true] at hn

/-- **The profile of a rule is given exactly where the rule decides.** -/
theorem growthProfile_eq_profile_iff :
    growthProfile standard language code = rule.profile ↔ rule.DecidesOn language code := by
  rcases growthProfile_cases language code with ⟨first, hd, hp⟩ | ⟨hn, hp⟩
  · rw [hp]
    constructor
    · intro h
      rwa [← profile_injective h]
    · intro h
      have he := (find?_eq_some_iff_decides.mpr hd).symm.trans (find?_eq_some_iff_decides.mpr h)
      rw [Option.some.inj he]
  · rw [hp]
    constructor
    · intro h
      exact absurd h.symm rule.profile_ne_constant
    · intro h
      have hfalse := h.holds
      rw [hn rule] at hfalse
      cases hfalse

/-- **The growth is constant exactly where no rule applies.** -/
theorem growthProfile_eq_constant_iff :
    growthProfile standard language code = .constant ↔
      ∀ rule : GrowthRule, rule.applies language code = false := by
  rcases growthProfile_cases language code with ⟨first, hd, hp⟩ | ⟨hn, hp⟩
  · rw [hp]
    constructor
    · intro h
      exact absurd h first.profile_ne_constant
    · intro h
      have hfalse := hd.holds
      rw [h first] at hfalse
      cases hfalse
  · exact ⟨fun _ => hn, fun _ => hp⟩

/-! ### The worst case -/

/-- **A worst case that only one rule has tells that this rule decides.** -/
theorem worst_eq_iff_decidesOn {growth : Growth} (hrule : rule.profile.time.worst = growth)
    (honly : ∀ other : GrowthRule, other.profile.time.worst = growth → other = rule)
    (hne : growth ≠ .constant) :
    (growthProfile standard language code).time.worst = growth ↔ rule.DecidesOn language code := by
  constructor
  · intro h
    rcases growthProfile_cases language code with ⟨other, hd, hp⟩ | ⟨-, hp⟩
    · rw [hp] at h
      rwa [honly other h] at hd
    · rw [hp] at h
      exact absurd h.symm hne
  · intro h
    rw [growthProfile_eq_profile_iff.mpr h, hrule]

theorem decidesOn_fibonacciRecursion_iff : fibonacciRecursion.DecidesOn language code ↔
    language.hasRecursiveFibonacci code = true := by
  constructor
  · intro h
    exact h.holds
  · intro h
    exact ⟨reached_cons.mpr (Or.inl rfl), h⟩

theorem decidesOn_nestedLoops (hr : language.hasRecursiveFibonacci code = false)
    (hn : language.hasNestedLoops code = true)
    (h : ∀ rule ∈ [memoization, .binarySearch, .divideAndConquer, .greedy],
      ¬ rule.DecidesOn language code) : nestedLoops.DecidesOn language code := by
  rcases growthProfile_cases language code with ⟨rule, hd, -⟩ | ⟨hnone, -⟩
  · cases rule with
    | fibonacciRecursion =>
      have hr' : language.hasRecursiveFibonacci code = true := hd.holds
      rw [hr] at hr'
      cases hr'
    | nestedLoops => exact hd
    | singleLoop =>
      have hn' : language.hasNestedLoops code = false := hd.earlier .nestedLoops (by decide)
      rw [hn] at hn'
      cases hn'
    | _ => exact absurd hd (h _ (by decide))
  · have hn' : language.hasNestedLoops code = false := hnone .nestedLoops
    rw [hn] at hn'
    cases hn'

/-- **The worst case is exponential exactly where the doubly recursive definition is found.** -/
theorem worst_eq_exponential_iff :
    (growthProfile standard language code).time.worst = .exponential ↔
      language.hasRecursiveFibonacci code = true := by
  rw [← decidesOn_fibonacciRecursion_iff]
  apply worst_eq_iff_decidesOn
  · rfl
  · intro other
    cases other <;> decide
  · decide

/-- **The worst case is quadratic exactly where nested loops decide.** -/
theorem worst_eq_quadratic_iff :
    (growthProfile standard language code).time.worst = .quadratic ↔
      nestedLoops.DecidesOn language code := by
  apply worst_eq_iff_decidesOn
  · rfl
  · intro other
    cases other <;> decide
  · decide

/-- **The worst case is constant exactly where no rule applies.** -/
theorem worst_eq_constant_iff :
    (growthProfile standard language code).time.worst = .constant ↔
      ∀ rule : GrowthRule, rule.applies language code = false := by
  rw [← growthProfile_eq_constant_iff]
  constructor
  · intro h
    rcases growthProfile_cases language code with ⟨rule, -, hp⟩ | ⟨-, hp⟩
    · rw [hp] at h
      have hne : rule.profile.time.worst ≠ .constant := by cases rule <;> decide
      exact absurd h hne
    · exact hp
  · intro h
    rw [h]
    rfl

end GrowthRule

/-! ### The kind of a snippet -/

namespace Detector

variable {language : Language} {code : Text}

/-- The detector decides in the standard chain. -/
abbrev DecidesOn (detector : Detector) (language : Language) (code : Text) : Prop :=
  Decides standard (·.recognises language code) detector

theorem mem_standard (detector : Detector) : detector ∈ standard := by
  cases detector <;> decide

theorem case_of_extract {detector : Detector} {finding : Finding}
    (h : detector.extract language code = .ok finding) : finding.case = detector.case := by
  cases detector with
  | fibonacci =>
    rw [extract] at h
    cases hn : language.fibonacciArgument code with
    | error e => rw [hn] at h; cases h
    | ok n =>
      rw [hn] at h
      cases h
      rfl
  | _ =>
    cases h
    rfl

/-- **The kind of a snippet is that of the detector that decides**; where no detector recognises
anything, it is the default. -/
theorem classify_cases {found : Classification} (h : classify standard language code = .ok found) :
    (∃ detector : Detector, detector.DecidesOn language code ∧ found.finding.case = detector.case) ∨
    ((∀ detector : Detector, detector.recognises language code = false) ∧
      found.finding.case = .default) := by
  rw [classify] at h
  cases hf : standard.find? (·.recognises language code) with
  | some detector =>
    rw [hf] at h
    dsimp only at h
    cases he : detector.extract language code with
    | error e => rw [he] at h; cases h
    | ok finding =>
      rw [he] at h
      cases h
      exact Or.inl ⟨detector, find?_eq_some_iff_decides.mp hf, case_of_extract he⟩
  | none =>
    rw [hf] at h
    cases h
    refine Or.inr ⟨?_, rfl⟩
    intro detector
    have hn := List.find?_eq_none.mp hf detector detector.mem_standard
    rwa [Bool.not_eq_true] at hn

end Detector

end Snippet
