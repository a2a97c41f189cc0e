import Snippet.Advice
import Snippet.Proofs.Deciding
import Snippet.Proofs.SearchDepth

/-!
# Who asks for the loops of a snippet

A chain only comes to the items whose turn it is, so one that would break off on a question about
loops need not do so. Detectors, rules of growth and advice each ask for loops in some cases
(`measuresLoops`). Where a question is asked and the frames do not suffice, nothing is said of the
snippet; otherwise the same is said of it as without a limit.

* `findM?_of_fine`, `findM?_of_not_fine`: what a chain of tests finds that may break off.
* `classifyWithin_of_shallow`, `classifyWithin_of_deep`, and their companions for
  `growthProfileWithin` and `adviseWithin`.
-/

namespace Snippet

/-! ### Chains that break off -/

section

variable {α ε : Type} {chain : List α} {test : α → Except ε Bool} {applies applies' asks : α → Bool}
  {first item : α} {fine : Prop} {e : ε}

theorem findM?_cons : (first :: chain).findM? test =
    (test first).bind fun found => if found then .ok (some first) else chain.findM? test := by
  rw [List.findM?]
  cases test first with
  | error e => rfl
  | ok found => cases found <;> rfl

variable [DecidableEq α] [Decidable fine]

/-- **A chain finds what it finds** if all is fine for the items that ask and whose turn it is. -/
theorem findM?_of_fine
    (h : ∀ item, test item = if asks item = true → fine then .ok (applies item) else .error e)
    (hfine : (∃ item, Reached chain applies item ∧ asks item = true) → fine) :
    chain.findM? test = .ok (chain.find? applies) := by
  induction chain with
  | nil => rfl
  | cons first chain ih =>
    have hfirst : test first = .ok (applies first) := by
      rw [h, if_pos fun ha => hfine ⟨first, reached_cons.mpr (Or.inl rfl), ha⟩]
    rw [findM?_cons, hfirst]
    cases hf : applies first with
    | true =>
      rw [List.find?_cons_of_pos hf]
      rfl
    | false =>
      rw [List.find?_cons_of_neg (by rw [hf]; decide)]
      refine ih ?_
      rintro ⟨item, hr, ha⟩
      exact hfine ⟨item, reached_cons.mpr (Or.inr ⟨hf, hr⟩), ha⟩

/-- **An item that asks breaks the chain off** when it is its turn and all is not fine. -/
theorem findM?_of_not_fine
    (h : ∀ item, test item = if asks item = true → fine then .ok (applies item) else .error e)
    (hr : Reached chain applies item) (ha : asks item = true) (hn : ¬ fine) :
    chain.findM? test = .error e := by
  induction chain with
  | nil => exact absurd hr.mem List.not_mem_nil
  | cons first chain ih =>
    rw [findM?_cons, h]
    by_cases hfirst : asks first = true
    · rw [if_neg fun hf => hn (hf hfirst)]
      rfl
    · rw [if_pos fun ha => absurd ha hfirst]
      rcases reached_cons.mp hr with rfl | ⟨hf, hr⟩
      · exact absurd ha hfirst
      · rw [hf]
        exact ih hr

omit [Decidable fine] in
/-- Whose turn it is depends on the items whose turn it is. -/
theorem Reached.congr (h : ∀ item, Reached chain applies item → applies item = applies' item)
    (hr : Reached chain applies item) : Reached chain applies' item := by
  induction chain with
  | nil => exact absurd hr.mem List.not_mem_nil
  | cons first chain ih =>
    rcases reached_cons.mp hr with rfl | ⟨hf, hr⟩
    · exact reached_cons.mpr (Or.inl rfl)
    · have hf' : applies' first = false := by rw [← h first (reached_cons.mpr (Or.inl rfl)), hf]
      refine reached_cons.mpr (Or.inr ⟨hf', ih ?_ hr⟩)
      exact fun item hr => h item (reached_cons.mpr (Or.inr ⟨hf, hr⟩))

end

/-- A filter that breaks off at the items of one kind keeps what it keeps or breaks off. -/
theorem filterM_eq_ite {α ε : Type} {test : α → Except ε Bool} {keeps : α → Bool}
    {fine : α → Prop} [DecidablePred fine] {e : ε}
    (h : ∀ item, test item = if fine item then .ok (keeps item) else .error e) (items : List α) :
    items.filterM test =
      if ∀ item ∈ items, fine item then .ok (items.filter keeps) else .error e := by
  have main : ∀ (items kept : List α), List.filterAuxM test items kept =
      if ∀ item ∈ items, fine item then .ok ((items.filter keeps).reverse ++ kept)
      else .error e := by
    intro items
    induction items with
    | nil => exact fun kept => rfl
    | cons item items ih =>
      intro kept
      rw [List.filterAuxM, h]
      simp only [List.forall_mem_cons]
      by_cases hitem : fine item
      · rw [if_pos hitem]
        simp only [hitem, true_and]
        cases hk : keeps item with
        | true => simpa [hk, bind, Except.bind] using ih (item :: kept)
        | false => simpa [hk, bind, Except.bind] using ih kept
      · simp [hitem, bind, Except.bind]
  rw [List.filterM, main]
  split
  · simp [bind, Except.bind, pure, Except.pure]
  · rfl

variable {frames : Nat} {language : Language} {code : Text}

/-! ### Detectors -/

namespace Detector

variable {chain : List Detector}

/-- Whether the detector asks for the loops of a snippet. -/
def measuresLoops (detector : Detector) (language : Language) (code : Text) : Bool :=
  match detector with
  | bubbleSort | selectionSort | loop => true
  | iterationOutput => language.hasPrint code && !language.hasArrayVocabulary code
  | _ => false

/-- A detector that asks for the loops of a snippet has its turn in a chain. -/
def MeasuresIn (chain : List Detector) (language : Language) (code : Text) : Prop :=
  ∃ detector, Reached chain (·.recognises language code) detector ∧
    detector.measuresLoops language code = true

theorem recognisesWithin_eq (detector : Detector) (frames : Nat) (language : Language)
    (code : Text) :
    detector.recognisesWithin frames language code =
      if detector.measuresLoops language code = true → language.IsShallow frames code then
        .ok (detector.recognises language code)
      else .error .tooDeep := by
  cases detector with
  | bubbleSort | selectionSort =>
    by_cases hs : language.IsShallow frames code
    · simp [recognisesWithin, Language.hasNestedLoopsWithin_eq, hs, recognises, bind, Except.bind,
        pure, Except.pure]
    · simp [recognisesWithin, Language.hasNestedLoopsWithin_eq, hs, measuresLoops, bind,
        Except.bind]
  | loop =>
    simp [recognisesWithin, Language.hasLoopWithin_eq, measuresLoops, recognises]
  | iterationOutput =>
    rw [recognisesWithin, Language.hasLoopWithin_eq, measuresLoops, recognises]
    cases language.hasPrint code <;> cases language.hasArrayVocabulary code <;> simp
  | _ => simp [recognisesWithin, measuresLoops]

/-- The standard chain asks for loops where none of its first three detectors recognises
anything. -/
theorem measuresIn_standard_iff : MeasuresIn standard language code ↔
    ∀ detector ∈ [blockingInput, literalOutput, fibonacci],
      detector.recognises language code = false := by
  have hall : ∀ detector, Reached standard (·.recognises language code) detector →
      detector ∉ [blockingInput, literalOutput, fibonacci] →
      ∀ earlier ∈ [blockingInput, literalOutput, fibonacci],
        earlier.recognises language code = false := by
    intro detector hr hlate earlier he
    refine hr.earlier earlier ?_
    revert hlate earlier
    cases detector <;> decide
  constructor
  · rintro ⟨detector, hr, hm⟩
    refine hall detector hr ?_
    revert hm
    cases detector <;> simp [measuresLoops]
  · intro h
    refine ⟨bubbleSort, ⟨mem_standard bubbleSort, ?_⟩, rfl⟩
    exact h

end Detector

section

variable {chain : List Detector}

theorem classifyWithin_of_shallow
    (h : Detector.MeasuresIn chain language code → language.IsShallow frames code) :
    classifyWithin frames chain language code =
      (classify chain language code).mapError .numeral := by
  rw [classifyWithin, classify,
    findM?_of_fine (fun detector => detector.recognisesWithin_eq frames language code) h]
  cases chain.find? (·.recognises language code) <;> rfl

theorem classifyWithin_of_deep (hm : Detector.MeasuresIn chain language code)
    (hd : ¬ language.IsShallow frames code) :
    classifyWithin frames chain language code = .error (.stack .tooDeep) := by
  obtain ⟨detector, hr, hm⟩ := hm
  rw [classifyWithin,
    findM?_of_not_fine (fun detector => detector.recognisesWithin_eq frames language code) hr hm hd]

end

/-! ### Rules of growth -/

namespace GrowthRule

variable {rules : List GrowthRule}

/-- Whether the rule asks for the loops of a snippet. -/
def measuresLoops : GrowthRule → Bool
  | nestedLoops | singleLoop => true
  | _ => false

/-- A rule that asks for the loops of a snippet has its turn. -/
def MeasuresIn (rules : List GrowthRule) (language : Language) (code : Text) : Prop :=
  ∃ rule, Reached rules (·.applies language code) rule ∧ rule.measuresLoops = true

theorem appliesWithin_eq (rule : GrowthRule) (frames : Nat) (language : Language) (code : Text) :
    rule.appliesWithin frames language code =
      if rule.measuresLoops = true → language.IsShallow frames code then
        .ok (rule.applies language code)
      else .error .tooDeep := by
  cases rule with
  | nestedLoops =>
    simp [appliesWithin, Language.hasNestedLoopsWithin_eq, measuresLoops, applies]
  | singleLoop => simp [appliesWithin, Language.hasLoopWithin_eq, measuresLoops, applies]
  | _ => simp [appliesWithin, measuresLoops]

end GrowthRule

section

variable {rules : List GrowthRule}

theorem growthProfileWithin_of_shallow
    (h : GrowthRule.MeasuresIn rules language code → language.IsShallow frames code) :
    growthProfileWithin frames rules language code = .ok (growthProfile rules language code) := by
  rw [growthProfileWithin, growthProfile,
    findM?_of_fine (fun rule => rule.appliesWithin_eq frames language code) h]
  cases rules.find? (·.applies language code) <;> rfl

theorem growthProfileWithin_of_deep (hm : GrowthRule.MeasuresIn rules language code)
    (hd : ¬ language.IsShallow frames code) :
    growthProfileWithin frames rules language code = .error .tooDeep := by
  obtain ⟨rule, hr, hm⟩ := hm
  rw [growthProfileWithin,
    findM?_of_not_fine (fun rule => rule.appliesWithin_eq frames language code) hr hm hd]

theorem growthProfile_of_within {profile : GrowthProfile}
    (h : growthProfileWithin frames rules language code = .ok profile) :
    profile = growthProfile rules language code := by
  by_cases hs : GrowthRule.MeasuresIn rules language code → language.IsShallow frames code
  · rw [growthProfileWithin_of_shallow hs] at h
    exact (Except.ok.inj h).symm
  · rw [Classical.not_imp] at hs
    rw [growthProfileWithin_of_deep hs.1 hs.2] at h
    cases h

end

/-! ### Advice -/

namespace Advice

variable {worst : Growth}

/-- A question about the loops of a snippet is asked: for the advice by shape, for the remark on
vectors in C++, or for the remark on output. -/
def MeasuresLoops (language : Language) (code : Text) : Prop :=
  language.hasRecursiveFibonacci code = false ∨
    (language = .cpp ∧ reserveCall.occursIn (language.mask code) = false) ∨
    language.hasPrint code = true

instance (language : Language) (code : Text) : Decidable (MeasuresLoops language code) :=
  inferInstanceAs (Decidable (_ ∨ _))

theorem byShapeWithin_eq (frames : Nat) (language : Language) (code : Text) (worst : Growth) :
    byShapeWithin frames language code worst =
      if language.hasRecursiveFibonacci code = false → language.IsShallow frames code then
        .ok (byShape language code worst)
      else .error .tooDeep := by
  rw [byShapeWithin, byShape, Language.hasNestedLoopsWithin_eq, Language.hasLoopWithin_eq]
  cases language.hasRecursiveFibonacci code with
  | true => simp
  | false =>
    by_cases hs : language.IsShallow frames code
    · simp only [hs, if_true, Bool.false_eq_true, if_false, implies_true]
      cases language.hasNestedLoops code with
      | true => rfl
      | false => cases language.hasLoop code <;> rfl
    · simp only [hs, if_false, Bool.false_eq_true, imp_false, not_true_eq_false]
      rfl

theorem lacksWithin_eq (frames : Nat) (idiom : Idiom) (mask : Text) :
    lacksWithin frames idiom mask =
      if idiom = .reserve → reserveCall.occursIn mask = false → IsShallowMask frames mask then
        .ok (lacks idiom mask)
      else .error .tooDeep := by
  cases idiom with
  | reserve =>
    rw [lacksWithin, lacks, loopSpansWithin_eq]
    cases reserveCall.occursIn mask with
    | true => simp
    | false =>
      by_cases hs : IsShallowMask frames mask <;> simp [hs, Except.map, growsInLoop]
  | _ => simp [lacksWithin]

theorem onlyPrintsWithin_eq (frames : Nat) (language : Language) (code : Text) :
    onlyPrintsWithin frames language code =
      if language.hasPrint code = true → language.IsShallow frames code then
        .ok (language.hasPrint code && !language.hasLoop code &&
          !language.hasRecursiveFibonacci code)
      else .error .tooDeep := by
  rw [onlyPrintsWithin, Language.hasLoopWithin_eq]
  cases language.hasPrint code with
  | false => simp
  | true => by_cases hs : language.IsShallow frames code <;> simp [hs, Except.map]

/-- Only the remark on vectors asks for loops, and it is made in C++ alone. -/
theorem forall_mem_filter_language :
    (∀ idiom ∈ Idiom.all.filter (·.language == language), idiom = .reserve →
      reserveCall.occursIn (language.mask code) = false →
        IsShallowMask frames (language.mask code)) ↔
    (language = .cpp → reserveCall.occursIn (language.mask code) = false →
      language.IsShallow frames code) := by
  constructor
  · rintro h rfl hr _
    exact h .reserve (by decide) rfl hr
  · rintro h _ hm rfl hr
    have hl : Language.cpp = language := beq_iff_eq.mp (List.mem_filter.mp hm).2
    exact h hl.symm hr (by rw [← hl]; rfl)

theorem byIdiomWithin_eq (frames : Nat) (language : Language) (code : Text) :
    byIdiomWithin frames language code =
      if (language = .cpp → reserveCall.occursIn (language.mask code) = false →
            language.IsShallow frames code) ∧
          (language.hasPrint code = true → language.IsShallow frames code) then
        .ok (byIdiom language code)
      else .error .tooDeep := by
  have hidioms := filterM_eq_ite (fun idiom => lacksWithin_eq frames idiom (language.mask code))
    (Idiom.all.filter (·.language == language))
  have hsame : ((Idiom.all.filter (·.language == language)).filter
      (lacks · (language.mask code))) = Idiom.all.filter fun idiom =>
        idiom.language == language && lacks idiom (language.mask code) := by
    rw [List.filter_filter]
    simp only [Bool.and_comm]
  simp only [forall_mem_filter_language, hsame] at hidioms
  rw [byIdiomWithin, byIdiom, hidioms, onlyPrintsWithin_eq, bind_ite]

/-- **Advice is given as without a limit where the frames suffice** or no question is asked. -/
theorem adviseWithin_eq (frames : Nat) (language : Language) (code : Text) (worst : Growth) :
    adviseWithin frames language code worst =
      if MeasuresLoops language code → language.IsShallow frames code then
        .ok (advise language code worst)
      else .error .tooDeep := by
  rw [adviseWithin, byShapeWithin_eq, byIdiomWithin_eq, bind_ite]
  congr 1
  rw [MeasuresLoops, eq_iff_iff]
  constructor
  · rintro ⟨hshape, hvector, houtput⟩ (hm | ⟨hl, hr⟩ | hp)
    · exact hshape hm
    · exact hvector hl hr
    · exact houtput hp
  · intro h
    exact ⟨fun hm => h (Or.inl hm), fun hl hr => h (Or.inr (Or.inl ⟨hl, hr⟩)),
      fun hp => h (Or.inr (Or.inr hp))⟩

end Advice

end Snippet
