import Snippet.Proofs.AdviceList

/-!
# What advice promises

Some advice says in its impact which class of growth it turns into which (`Promises`).  Only two
pieces of advice do: memoization of Fibonacci numbers, and the one on nested loops
(`promises_iff`).  The first class is that of the profile.

So advice that quotes the growth of its own snippet improves on it unless a rule ahead of nested
loops decides on a snippet with nested loops (`improves_iff`): what such a rule says is no more than
`n log n` already, and the advice on nested loops promises just that.
-/

namespace Snippet

theorem Growth.label_injective {a b : Growth} (h : a.label = b.label) : a = b := by
  have hl := ofLabel?_label a
  rw [h, ofLabel?_label] at hl
  exact (Option.some.inj hl).symm

namespace Advice

variable {language : Language} {code : Text} {worst before after : Growth} {advice : Advice}

/-! ### Changes of growth -/

theorem toList_change (before after : Growth) :
    (change before after).toList =
      (before.label.toList ++ [' ']) ++ '→' :: ' ' :: after.label.toList := by
  rw [change, String.toList_append, String.toList_append]
  simp

/-- **A change can be read back from how it is written.** -/
theorem change_injective {before' after' : Growth}
    (h : change before after = change before' after') :
    before = before' ∧ after = after' := by
  have harrow : ∀ growth : Growth, '→' ∉ growth.label.toList := by
    intro growth
    cases growth <;> decide
  have hleft : '→' ∉ before.label.toList ++ [' '] := by simp [harrow before]
  have hright : '→' ∉ ' ' :: after.label.toList := by simp [harrow after]
  have hl := congrArg String.toList h
  rw [toList_change, toList_change] at hl
  obtain ⟨hb, -, ha⟩ := (List.append_cons_inj_of_notMem hleft hright).mp hl
  exact ⟨Growth.label_injective (String.toList_inj.mp (List.append_cancel_right hb)),
    Growth.label_injective (String.toList_inj.mp (List.cons.inj ha).2)⟩

theorem head?_change (before after : Growth) : (change before after).toList.head? = some 'O' := by
  rw [toList_change]
  cases before <;> rfl

theorem getLast?_change (before after : Growth) :
    (change before after).toList.getLast? = some ')' := by
  rw [change, String.toList_append, List.getLast?_append]
  cases after <;> rfl

/-- The advice says that it turns one class of growth into another, and nothing else. -/
def Promises (advice : Advice) (before after : Growth) : Prop :=
  advice.impact = some (change before after)

theorem not_promises_of_none (h : advice.impact = none) : ¬ advice.Promises before after := by
  intro hp
  rw [Promises, h] at hp
  cases hp

theorem not_promises_of_head {impact : String} (h : advice.impact = some impact)
    (hc : impact.toList.head? ≠ some 'O') : ¬ advice.Promises before after := by
  intro hp
  rw [Promises, h] at hp
  rw [Option.some.inj hp] at hc
  exact hc (head?_change before after)

theorem not_promises_of_getLast {impact : String} (h : advice.impact = some impact)
    (hc : impact.toList.getLast? ≠ some ')') : ¬ advice.Promises before after := by
  intro hp
  rw [Promises, h] at hp
  rw [Option.some.inj hp] at hc
  exact hc (getLast?_change before after)

/-! ### Which advice promises something -/

theorem of_promises_onFibonacci (h : advice ∈ onFibonacci language worst)
    (hp : advice.Promises before after) : before = worst ∧ after = .linear := by
  rw [onFibonacci] at h
  simp only [List.mem_cons, List.not_mem_nil, or_false] at h
  rcases h with rfl | rfl | rfl
  · obtain ⟨hb, ha⟩ := change_injective (Option.some.inj hp)
    exact ⟨hb.symm, ha.symm⟩
  · -- the change of the time is followed by that of the space
    refine absurd hp (not_promises_of_getLast rfl ?_)
    rw [String.toList_append, List.getLast?_append]
    show some 'e' ≠ some ')'
    decide
  · exact absurd hp (not_promises_of_none rfl)

theorem of_promises_onNestedLoops (h : advice ∈ onNestedLoops language worst)
    (hp : advice.Promises before after) : before = worst ∧ after = .linearithmic := by
  rw [onNestedLoops] at h
  simp only [List.mem_cons, List.not_mem_nil, or_false] at h
  rcases h with rfl | rfl
  · obtain ⟨hb, ha⟩ := change_injective (Option.some.inj hp)
    exact ⟨hb.symm, ha.symm⟩
  · exact absurd hp (not_promises_of_none rfl)

theorem not_promises_onSingleLoop {arrays : Bool}
    (h : advice ∈ onSingleLoop language worst arrays) :
    ¬ advice.Promises before after := by
  rw [onSingleLoop] at h
  rcases List.mem_cons.mp h with rfl | h
  · exact not_promises_of_none rfl
  · split at h
    · rw [List.mem_singleton.mp h]
      refine not_promises_of_head rfl ?_
      rw [String.toList_append, List.head?_append]
      show some 'F' ≠ some 'O'
      decide
    · cases h

theorem not_promises_generic (h : advice ∈ generic) : ¬ advice.Promises before after := by
  rw [generic] at h
  simp only [List.mem_cons, List.not_mem_nil, or_false] at h
  rcases h with rfl | rfl <;> exact not_promises_of_none rfl

theorem not_promises_byIdiom (h : advice ∈ byIdiom language code) :
    ¬ advice.Promises before after := by
  rcases mem_byIdiom_iff.mp h with ⟨idiom, -, -, rfl⟩ | ⟨-, -, -, rfl⟩
  · cases idiom with
    | reserve => exact not_promises_of_head rfl (by decide)
    | _ => exact not_promises_of_none rfl
  · exact not_promises_of_none rfl

/-- **Advice promises to turn the quoted growth into a linear one for Fibonacci numbers, and into
`n log n` for nested loops**, and promises nothing else. -/
theorem promises_iff :
    (∃ advice ∈ advise language code worst, advice.Promises before after) ↔
      before = worst ∧
        ((language.hasRecursiveFibonacci code = true ∧ after = .linear) ∨
          (language.hasRecursiveFibonacci code = false ∧ language.hasNestedLoops code = true ∧
            after = .linearithmic)) := by
  constructor
  · rintro ⟨advice, ha, hp⟩
    rcases List.mem_append.mp ha with ha | ha
    · rcases byShape_cases language code worst with
        ⟨hr, hs⟩ | ⟨hr, hn, hs⟩ | ⟨-, -, -, hs⟩ | ⟨-, -, hs⟩
      · rw [hs] at ha
        obtain ⟨hb, hl⟩ := of_promises_onFibonacci ha hp
        exact ⟨hb, Or.inl ⟨hr, hl⟩⟩
      · rw [hs] at ha
        obtain ⟨hb, hl⟩ := of_promises_onNestedLoops ha hp
        exact ⟨hb, Or.inr ⟨hr, hn, hl⟩⟩
      · rw [hs] at ha
        exact absurd hp (not_promises_onSingleLoop ha)
      · rw [hs] at ha
        exact absurd hp (not_promises_generic ha)
    · exact absurd hp (not_promises_byIdiom ha)
  · rintro ⟨rfl, ⟨hr, rfl⟩ | ⟨hr, hn, rfl⟩⟩
    · have hs : byShape language code before = onFibonacci language before := by
        rw [byShape, if_pos hr]
      rw [advise, hs]
      exact ⟨_, List.mem_cons_self, rfl⟩
    · have hs : byShape language code before = onNestedLoops language before := by
        rw [byShape, if_neg (by rw [hr]; decide), if_pos hn]
      rw [advise, hs]
      exact ⟨_, List.mem_cons_self, rfl⟩

/-! ### Improvement -/

/-- Whatever change of growth is promised in a list leads to slower growth. -/
def Improves (list : List Advice) : Prop :=
  ∀ advice ∈ list, ∀ before after, advice.Promises before after → after < before

/-- **Advice about a snippet improves on its growth exactly if no rule ahead of nested loops decides
on a snippet with nested loops**, the rule for Fibonacci numbers apart. -/
theorem improves_iff (language : Language) (code : Text) :
    Improves (advise language code (growthProfile GrowthRule.standard language code).time.worst) ↔
      ∀ rule ∈ [GrowthRule.memoization, .binarySearch, .divideAndConquer, .greedy],
        rule.DecidesOn language code → language.hasNestedLoops code = false := by
  constructor
  · intro h rule hm hd
    by_contra hn
    rw [Bool.not_eq_false] at hn
    have hr : language.hasRecursiveFibonacci code = false := by
      refine hd.earlier .fibonacciRecursion ?_
      revert hm
      cases rule <;> decide
    obtain ⟨advice, ha, hp⟩ := promises_iff.mpr ⟨rfl, Or.inr ⟨hr, hn, rfl⟩⟩
    have hlt := h advice ha _ _ hp
    rw [GrowthRule.growthProfile_eq_profile_iff.mpr hd] at hlt
    revert hm hlt
    cases rule <;> decide
  · intro h advice ha before after hp
    obtain ⟨rfl, ⟨hr, rfl⟩ | ⟨hr, hn, rfl⟩⟩ := promises_iff.mp ⟨advice, ha, hp⟩
    · rw [GrowthRule.worst_eq_exponential_iff.mpr hr]
      decide
    · have hd : GrowthRule.nestedLoops.DecidesOn language code := by
        refine GrowthRule.decidesOn_nestedLoops hr hn fun rule hm hd => ?_
        rw [h rule hm hd] at hn
        cases hn
      rw [GrowthRule.worst_eq_quadratic_iff.mpr hd]
      decide

/-- With stored results the growth is linear, and the advice on the nested loops promises to turn it
into `n log n`. -/
theorem not_improves_memo :
    ¬ Improves (advise .python "for i in memo:\n    for j in memo:\n        pass".toList
      (growthProfile GrowthRule.standard .python
        "for i in memo:\n    for j in memo:\n        pass".toList).time.worst) := by
  have hr : Language.python.hasRecursiveFibonacci
      "for i in memo:\n    for j in memo:\n        pass".toList = false := by decide +kernel
  have hn : Language.python.hasNestedLoops
      "for i in memo:\n    for j in memo:\n        pass".toList = true := by decide +kernel
  have hw : (growthProfile GrowthRule.standard .python
      "for i in memo:\n    for j in memo:\n        pass".toList).time.worst = .linear := by
    decide +kernel
  intro h
  obtain ⟨advice, ha, hp⟩ := promises_iff.mpr ⟨rfl, Or.inr ⟨hr, hn, rfl⟩⟩
  have hlt := h advice ha _ _ hp
  rw [hw] at hlt
  exact absurd hlt (by decide)

end Advice

end Snippet
