import Snippet.Playground
import Snippet.Proofs.Deciding
import Snippet.Proofs.HeadersInRow
import Snippet.Proofs.LoopQuestions
import Snippet.Proofs.Lookup

/-!
# The list of advice

Advice is put together from four pieces that each look at the snippet by themselves: the main shape,
the idioms of the language, the samples of code, and the growth that the advice quotes.
`generate_lawful` says how they fit together.

* `byShape_cases` and `mem_byIdiom_iff` say all that the two parts of the list can be.
* `lookUpSample_eq`: for every piece of advice that is ever given about a snippet, the table of
  samples has an entry under its name and in the language of the snippet.
* `hasLoop_of_lacks`: the idioms of loops are looked for by patterns of their own, and still they
  are only found where a loop is found.

There is no list where loops are asked for that are nested too deep for the frames that are left
(`generate_of_parse`, `not_generated_row`).
-/

namespace Snippet

/-! ### Where a loop is found -/

section

open Pattern

variable {language : Language} {mask : Text}

theorem one_le_loopDepthOfMask (hb : language.usesBraces = true) (h : loopSpans mask ≠ []) :
    1 ≤ language.loopDepthOfMask mask := by
  have main : ∀ (depths : List Nat) (deepest : Nat), deepest ≤ depths.foldl max deepest := by
    intro depths
    induction depths with
    | nil => exact fun deepest => Nat.le_refl deepest
    | cons depth depths ih =>
      intro deepest
      exact Nat.le_trans (Nat.le_max_left deepest depth) (ih (max deepest depth))
  obtain ⟨span, spans, hs⟩ := List.exists_cons_of_ne_nil h
  rw [Language.loopDepthOfMask, if_pos hb]
  dsimp only
  rw [hs, List.map_cons, List.foldl_cons]
  refine Nat.le_trans ?_ (main _ _)
  rw [nesting]
  omega

theorem loopHeader_of_indexLoop (h : Advice.indexLoop.occursIn mask = true) :
    loopHeader.occursIn mask = true := by
  obtain ⟨left, right, rfl, hf⟩ := occursIn_iff.mp h
  refine occursIn_iff.mpr ⟨left, right, rfl, fitsAt_either.mpr (Or.inl ?_)⟩
  -- the index and its bound stand behind the opening parenthesis
  have hfor : (edge ++ lit "for" ++ next '(').FitsAt left right :=
    hf.of_append.of_append.of_append.of_append.of_append.of_append.of_append.of_append.of_append
      |>.of_append.of_append.of_append.of_append.of_append.of_append
  obtain ⟨piece, rest, kept, hr, front, back, middle, hp,
    ⟨start, word, held, hw, he, hl⟩, hn⟩ := hfor
  refine ⟨piece, rest, kept, hr, front, back, middle, hp, ⟨start, word, held, hw, he, ?_⟩, hn⟩
  exact fits_firstOf.mpr ⟨lit "for", by simp, hl⟩

theorem loopSpans_ne_nil (h : loopHeader.occursIn mask = true) : loopSpans mask ≠ [] := by
  have hw : 0 < loopHeader.width := by
    rw [width_loopHeader]
    omega
  rw [loopSpans]
  intro hn
  exact matchesIn_ne_nil hw h (List.map_eq_nil_iff.mp hn)

theorem loopSpans_ne_nil_of_growsInLoop (h : Advice.growsInLoop mask = true) :
    loopSpans mask ≠ [] := by
  rw [Advice.growsInLoop, Advice.growsWithin, List.any_eq_true] at h
  obtain ⟨found, -, ha⟩ := h
  intro hn
  rw [hn] at ha
  cases ha

/-- **A snippet that lacks an idiom of loops has a loop.** -/
theorem hasLoop_of_lacks {code : Text} {idiom : Idiom}
    (hi : idiom ∈ [Idiom.enhancedFor, .reserve]) (hl : idiom.language = language)
    (h : Advice.lacks idiom (language.mask code) = true) : language.hasLoop code = true := by
  have hb : language.usesBraces = true := by
    rw [← hl]
    rcases List.mem_pair.mp hi with rfl | rfl <;> rfl
  have hs : loopSpans (language.mask code) ≠ [] := by
    rcases List.mem_pair.mp hi with rfl | rfl
    · exact loopSpans_ne_nil (loopHeader_of_indexLoop h)
    · rw [Advice.lacks, Bool.and_eq_true] at h
      exact loopSpans_ne_nil_of_growsInLoop h.2
  rw [Language.hasLoop, decide_eq_true_eq, Language.loopDepth]
  exact one_le_loopDepthOfMask hb hs

end

namespace Advice

variable {language : Language} {code : Text} {worst : Growth} {advice : Advice}

/-! ### The two parts of the list -/

/-- **What the main shape of a snippet calls for.** -/
theorem byShape_cases (language : Language) (code : Text) (worst : Growth) :
    (language.hasRecursiveFibonacci code = true ∧
      byShape language code worst = onFibonacci language worst) ∨
    (language.hasRecursiveFibonacci code = false ∧ language.hasNestedLoops code = true ∧
      byShape language code worst = onNestedLoops language worst) ∨
    (language.hasRecursiveFibonacci code = false ∧ language.hasNestedLoops code = false ∧
      language.hasLoop code = true ∧
      byShape language code worst =
        onSingleLoop language worst (language.hasArrayVocabulary code)) ∨
    (language.hasRecursiveFibonacci code = false ∧ language.hasLoop code = false ∧
      byShape language code worst = generic) := by
  rw [byShape]
  by_cases hr : language.hasRecursiveFibonacci code = true
  · exact Or.inl ⟨hr, if_pos hr⟩
  rw [if_neg hr]
  rw [Bool.not_eq_true] at hr
  by_cases hn : language.hasNestedLoops code = true
  · exact Or.inr (Or.inl ⟨hr, hn, if_pos hn⟩)
  rw [if_neg hn]
  rw [Bool.not_eq_true] at hn
  by_cases hl : language.hasLoop code = true
  · exact Or.inr (Or.inr (Or.inl ⟨hr, hn, hl, if_pos hl⟩))
  rw [if_neg hl]
  rw [Bool.not_eq_true] at hl
  exact Or.inr (Or.inr (Or.inr ⟨hr, hl, rfl⟩))

/-- **What the idioms of the language call for.** -/
theorem mem_byIdiom_iff : advice ∈ byIdiom language code ↔
    (∃ idiom : Idiom, idiom.language = language ∧ lacks idiom (language.mask code) = true ∧
      advice = onIdiom idiom) ∨
    (language.hasPrint code = true ∧ language.hasLoop code = false ∧
      language.hasRecursiveFibonacci code = false ∧ advice = onOutput language) := by
  have hall : ∀ idiom : Idiom, idiom ∈ Idiom.all := by
    intro idiom
    cases idiom <;> decide
  rw [byIdiom, List.mem_append]
  refine or_congr ?_ ?_
  · rw [List.mem_map]
    refine exists_congr ?_
    intro idiom
    rw [List.mem_filter, Bool.and_eq_true, beq_iff_eq]
    constructor
    · rintro ⟨⟨-, hl, hi⟩, ha⟩
      exact ⟨hl, hi, ha.symm⟩
    · rintro ⟨hl, hi, ha⟩
      exact ⟨⟨hall idiom, hl, hi⟩, ha.symm⟩
  · constructor
    · intro h
      split at h
      next hc =>
        simp only [Bool.and_eq_true, Bool.not_eq_true'] at hc
        exact ⟨hc.1.1, hc.1.2, hc.2, List.mem_singleton.mp h⟩
      · cases h
    · rintro ⟨hp, hl, hr, rfl⟩
      rw [hp, hl, hr]
      exact List.mem_singleton.mpr rfl

/-! ### Titles -/

@[simp] theorem titles_onFibonacci (language : Language) (worst : Growth) :
    (onFibonacci language worst).map title =
      ["Use Memoization", "Use Iteration Instead of Recursion", "Stack Overflow Risk"] := rfl

@[simp] theorem titles_onNestedLoops (language : Language) (worst : Growth) :
    (onNestedLoops language worst).map title =
      ["Consider Time Complexity", "Early Termination"] := rfl

@[simp] theorem titles_onSingleLoop (language : Language) (worst : Growth) (arrays : Bool) :
    (onSingleLoop language worst arrays).map title =
      "Handle Edge Cases" :: if arrays then ["Consider Pre-allocation"] else [] := by
  cases arrays <;> rfl

@[simp] theorem titles_generic :
    generic.map title = ["Add Error Handling", "Add Documentation"] := rfl

/-- The titles of the advice on idioms, in the order of the list. -/
def idiomTitles : List String :=
  ["Use enumerate()", "Use Enhanced For Loop", "Reserve Vector Capacity", "Prefer let/const",
    "Format Output"]

theorem titles_byIdiom_sublist (language : Language) (code : Text) :
    ((byIdiom language code).map title).Sublist idiomTitles := by
  have hsplit : idiomTitles = Idiom.all.map (fun idiom => (onIdiom idiom).title) ++
      ["Format Output"] := rfl
  rw [byIdiom, hsplit, List.map_append, List.map_map]
  refine List.Sublist.append ?_ ?_
  · exact List.filter_sublist.map _
  · split
    · exact List.Sublist.refl _
    · exact List.nil_sublist _

theorem nodup_titles_byShape (language : Language) (code : Text) (worst : Growth) :
    ((byShape language code worst).map title ++ idiomTitles).Nodup := by
  rcases byShape_cases language code worst with
    ⟨-, h⟩ | ⟨-, -, h⟩ | ⟨-, -, -, h⟩ | ⟨-, -, h⟩
  · rw [h, titles_onFibonacci]
    decide
  · rw [h, titles_onNestedLoops]
    decide
  · rw [h, titles_onSingleLoop]
    cases language.hasArrayVocabulary code <;> decide
  · rw [h, titles_generic]
    decide

/-- **No title is given twice.** -/
theorem nodup_titles (language : Language) (code : Text) (worst : Growth) :
    ((advise language code worst).map title).Nodup := by
  rw [advise, List.map_append]
  exact (nodup_titles_byShape language code worst).sublist
    (List.Sublist.append (List.Sublist.refl _) (titles_byIdiom_sublist language code))

theorem title_not_mem_idiomTitles (h : advice ∈ byShape language code worst) :
    advice.title ∉ idiomTitles := by
  have hd := List.disjoint_of_nodup_append (nodup_titles_byShape language code worst)
  exact hd (List.mem_map_of_mem h)

/-! ### Samples -/

/-- The names of the samples that advice refers to, by the titles of the advice. -/
def sampleNames : List (String × String) :=
  [("Use Memoization", "memoization"),
    ("Use Iteration Instead of Recursion", "iteration"),
    ("Stack Overflow Risk", "depth_guard"),
    ("Early Termination", "early_termination"),
    ("Handle Edge Cases", "edge_case_guard"),
    ("Consider Pre-allocation", "pre_allocation"),
    ("Use enumerate()", "enumerate"),
    ("Use Enhanced For Loop", "enhanced_for"),
    ("Reserve Vector Capacity", "reserve"),
    ("Prefer let/const", "let_const"),
    ("Format Output", "format_output")]

/-- A sample that the table does not have. -/
structure MissingSample where
  name : String
  language : Language

/-- A piece of advice with the sample that the table has under its name. -/
def lookUpSample (language : Language) (advice : Advice) : Except MissingSample Advice :=
  match sampleNames.lookup advice.title with
  | none => .ok { advice with code := none }
  | some name =>
    match CodeSample.named? name language with
    | none => .error ⟨name, language⟩
    | some sample => .ok { advice with code := some sample }

theorem lookUpSample_onIdiom (idiom : Idiom) :
    lookUpSample idiom.language (onIdiom idiom) = .ok (onIdiom idiom) := by
  cases idiom <;> rfl

theorem lookUpSample_byShape (h : advice ∈ byShape language code worst) :
    lookUpSample language advice = .ok advice := by
  rcases byShape_cases language code worst with
    ⟨-, hs⟩ | ⟨-, -, hs⟩ | ⟨-, -, -, hs⟩ | ⟨-, -, hs⟩
  · rw [hs, onFibonacci] at h
    simp only [List.mem_cons, List.not_mem_nil, or_false] at h
    rcases h with rfl | rfl | rfl <;> rfl
  · rw [hs, onNestedLoops] at h
    simp only [List.mem_cons, List.not_mem_nil, or_false] at h
    rcases h with rfl | rfl <;> rfl
  · rw [hs, onSingleLoop] at h
    rcases List.mem_cons.mp h with rfl | h
    · rfl
    · split at h
      · rw [List.mem_singleton.mp h]
        rfl
      · cases h
  · rw [hs, generic] at h
    simp only [List.mem_cons, List.not_mem_nil, or_false] at h
    rcases h with rfl | rfl <;> rfl

/-- **The table has every sample that advice about a snippet refers to**, in its language. -/
theorem lookUpSample_eq (h : advice ∈ advise language code worst) :
    lookUpSample language advice = .ok advice := by
  rcases List.mem_append.mp h with h | h
  · exact lookUpSample_byShape h
  · rcases mem_byIdiom_iff.mp h with ⟨idiom, rfl, -, rfl⟩ | ⟨-, -, -, rfl⟩
    · exact lookUpSample_onIdiom idiom
    · rfl

theorem language_of_named? {name : String} {sample : CodeSample}
    (h : CodeSample.named? name language = some sample) : sample.language = language := by
  rw [CodeSample.named?] at h
  split at h
  · cases h
    rfl
  · obtain ⟨idiom, hf, rfl⟩ := Option.map_eq_some_iff.mp h
    have hi := List.find?_some hf
    rw [Bool.and_eq_true, beq_iff_eq, beq_iff_eq] at hi
    exact hi.2

theorem language_of_lookUpSample (h : lookUpSample language advice = .ok advice)
    {sample : CodeSample} (hs : advice.code = some sample) : sample.language = language := by
  rw [lookUpSample] at h
  split at h
  · rw [← Except.ok.inj h] at hs
    cases hs
  · split at h
    · cases h
    next found hn =>
      rw [← Except.ok.inj h] at hs
      cases hs
      exact language_of_named? hn

/-! ### Generating advice -/

/-- Why no advice is generated. -/
inductive GenerationError where
  | unsupported (e : Language.Unsupported)
  /-- The search for loops broke off. -/
  | stack (e : StackError)
  | missing (e : MissingSample)

/-- The advice about a snippet in a language that a value names, with all samples looked up. -/
def generate (frames : Nat) (code : Text) (value : Json) (profile : GrowthProfile) :
    Except GenerationError (List Advice) :=
  match Language.parse value with
  | .error e => .error (.unsupported e)
  | .ok language =>
    match adviseWithin frames language code profile.time.worst with
    | .error e => .error (.stack e)
    | .ok list =>
      match list.mapM (lookUpSample language) with
      | .error e => .error (.missing e)
      | .ok list => .ok list

theorem generate_of_parse {value : Json} (h : Language.parse value = .ok language) (frames : Nat)
    (code : Text) (profile : GrowthProfile) :
    generate frames code value profile =
      if MeasuresLoops language code → language.IsShallow frames code then
        .ok (advise language code profile.time.worst)
      else .error (.stack .tooDeep) := by
  have hm := @mapM_eq_ok Advice Advice MissingSample (advise language code profile.time.worst)
    (lookUpSample language) id fun advice ha => lookUpSample_eq ha
  rw [generate, h]
  dsimp only
  rw [adviseWithin_eq]
  by_cases hs : MeasuresLoops language code → language.IsShallow frames code
  · rw [if_pos hs, if_pos hs]
    dsimp only
    rw [hm, List.map_id]
  · rw [if_neg hs, if_neg hs]

/-- **Advice is generated unless the language is not known** or loops are asked for that are nested
too deep. -/
theorem generate_error_iff (frames : Nat) (code : Text) (value : Json) (profile : GrowthProfile) :
    (∃ e, generate frames code value profile = .error e) ↔
      (∀ language, Language.parse value ≠ .ok language) ∨
        ∃ language, Language.parse value = .ok language ∧ MeasuresLoops language code ∧
          ¬ language.IsShallow frames code := by
  cases hp : Language.parse value with
  | error e =>
    constructor
    · exact fun _ => Or.inl nofun
    · intro _
      exact ⟨.unsupported e, by rw [generate, hp]⟩
  | ok language =>
    rw [generate_of_parse hp]
    constructor
    · rintro ⟨e, he⟩
      by_cases hs : MeasuresLoops language code → language.IsShallow frames code
      · rw [if_pos hs] at he
        cases he
      · exact Or.inr ⟨language, rfl, Classical.not_imp.mp hs⟩
    · rintro (h | ⟨_, ⟨⟩, hm, hd⟩)
      · exact absurd rfl (h language)
      · exact ⟨.stack .tooDeep, if_neg fun hs => hd (hs hm)⟩

theorem insights_eq_generate (frames : Nat) (code : Text) (value : Json) (profile : GrowthProfile) :
    Playground.insights code value profile frames =
      match generate frames code value profile with
      | .ok list => list
      | .error _ => generic := by
  cases hp : Language.parse value with
  | error e => rw [Playground.insights, generate, hp]
  | ok language =>
    rw [generate_of_parse hp, Playground.insights, hp]
    dsimp only
    rw [adviseWithin_eq]
    by_cases hs : MeasuresLoops language code → language.IsShallow frames code
    · rw [if_pos hs, if_pos hs]
    · rw [if_neg hs, if_neg hs]

/-! ### How a list opens -/

theorem head?_titles_of_opens {part list : List Advice} {title' : String}
    (hp : (part.map title).head? = some title') (h : part <+: list) :
    (list.map title).head? = some title' := by
  obtain ⟨rest, rfl⟩ := h
  rw [List.map_append, List.head?_append, hp]
  rfl

theorem head?_titles_advise {title' : String}
    (h : ((advise language code worst).map title).head? = some title') :
    ((byShape language code worst).map title).head? = some title' := by
  rw [advise, List.map_append, List.head?_append] at h
  rcases byShape_cases language code worst with
    ⟨-, hs⟩ | ⟨-, -, hs⟩ | ⟨-, -, -, hs⟩ | ⟨-, -, hs⟩ <;>
  · rw [hs] at h ⊢
    exact h

/-- **Advice opens with that on Fibonacci numbers exactly for the doubly recursive definition.** -/
theorem onFibonacci_prefix_iff : onFibonacci language worst <+: advise language code worst ↔
    language.hasRecursiveFibonacci code = true := by
  constructor
  · intro h
    have hp : ((onFibonacci language worst).map title).head? = some "Use Memoization" := rfl
    have hh := head?_titles_advise (head?_titles_of_opens hp h)
    rcases byShape_cases language code worst with
      ⟨hr, -⟩ | ⟨-, -, hs⟩ | ⟨-, -, -, hs⟩ | ⟨-, -, hs⟩
    · exact hr
    · rw [hs, titles_onNestedLoops] at hh
      exact absurd (Option.some.inj hh) (by decide)
    · rw [hs, titles_onSingleLoop] at hh
      exact absurd (Option.some.inj hh) (by decide)
    · rw [hs, titles_generic] at hh
      exact absurd (Option.some.inj hh) (by decide)
  · intro h
    rw [advise, byShape, if_pos h]
    exact List.prefix_append _ _

/-- **Advice opens with the general one exactly where there is no loop** and no doubly recursive
definition. -/
theorem generic_prefix_iff : generic <+: advise language code worst ↔
    language.hasRecursiveFibonacci code = false ∧ language.hasLoop code = false := by
  constructor
  · intro h
    have hp : (generic.map title).head? = some "Add Error Handling" := rfl
    have hh := head?_titles_advise (head?_titles_of_opens hp h)
    rcases byShape_cases language code worst with
      ⟨-, hs⟩ | ⟨-, -, hs⟩ | ⟨-, -, -, hs⟩ | ⟨hr, hl, -⟩
    · rw [hs, titles_onFibonacci] at hh
      exact absurd (Option.some.inj hh) (by decide)
    · rw [hs, titles_onNestedLoops] at hh
      exact absurd (Option.some.inj hh) (by decide)
    · rw [hs, titles_onSingleLoop] at hh
      exact absurd (Option.some.inj hh) (by decide)
    · exact ⟨hr, hl⟩
  · rintro ⟨hr, hl⟩
    rcases byShape_cases language code worst with
      ⟨hr', -⟩ | ⟨-, hn, -⟩ | ⟨-, -, hl', -⟩ | ⟨-, -, hs⟩
    · rw [hr] at hr'
      cases hr'
    · rw [Language.hasLoop_of_hasNestedLoops hn] at hl
      cases hl
    · rw [hl] at hl'
      cases hl'
    · rw [advise, hs]
      exact List.prefix_append _ _

/-! ### The laws of advice -/

/-- A list of advice for a language: no title stands twice, and every sample has code in it. -/
structure WellFormed (language : Language) (list : List Advice) : Prop where
  titles : (list.map title).Nodup
  samples : ∀ advice ∈ list, ∀ sample, advice.code = some sample →
    sample.language = language ∧ sample.source ≠ ""

/-- Remarks on output only stand behind the general advice, and remarks on loops never do. -/
structure Placed (list : List Advice) : Prop where
  output : ∀ advice ∈ list, advice.title = "Format Output" → generic <+: list
  loops : generic <+: list → ∀ advice ∈ list,
    advice.title ≠ "Reserve Vector Capacity" ∧ advice.title ≠ "Use Enhanced For Loop"

/-- A list opens with some advice, which has the given titles. -/
structure Opens (part : List Advice) (titles : List String) (list : List Advice) : Prop where
  opens : part <+: list
  titles_eq : part.map title = titles

/-- A list of advice opens in the way that the worst case of a profile calls for. -/
structure Follows (language : Language) (worst : Growth) (list : List Advice) : Prop where
  exponential : Opens (onFibonacci language worst)
    ["Use Memoization", "Use Iteration Instead of Recursion", "Stack Overflow Risk"] list ↔
      worst = .exponential
  quadratic : worst = .quadratic →
    Opens (onNestedLoops language worst) ["Consider Time Complexity", "Early Termination"] list
  constant : worst = .constant →
    Opens generic ["Add Error Handling", "Add Documentation"] list

theorem advise_wellFormed (language : Language) (code : Text) (worst : Growth) :
    WellFormed language (advise language code worst) where
  titles := nodup_titles language code worst
  samples := by
    intro advice ha sample hs
    exact ⟨language_of_lookUpSample (lookUpSample_eq ha) hs, sample.source_ne⟩

/-- **Remarks stand where they belong.** -/
theorem advise_placed (language : Language) (code : Text) (worst : Growth) :
    Placed (advise language code worst) where
  output := by
    intro advice ha ht
    rcases List.mem_append.mp ha with ha | ha
    · exact absurd (by rw [ht]; decide) (title_not_mem_idiomTitles ha)
    · rcases mem_byIdiom_iff.mp ha with ⟨idiom, -, -, rfl⟩ | ⟨-, hl, hr, -⟩
      · have hne : (onIdiom idiom).title ≠ "Format Output" := by cases idiom <;> decide
        exact absurd ht hne
      · exact generic_prefix_iff.mpr ⟨hr, hl⟩
  loops := by
    intro hg advice ha
    obtain ⟨-, hl⟩ := generic_prefix_iff.mp hg
    rcases List.mem_append.mp ha with ha | ha
    · have hn := title_not_mem_idiomTitles ha
      constructor
      · intro ht
        exact hn (by rw [ht]; decide)
      · intro ht
        exact hn (by rw [ht]; decide)
    · rcases mem_byIdiom_iff.mp ha with ⟨idiom, hi, hk, rfl⟩ | ⟨-, -, -, rfl⟩
      · -- the snippet has no loop, so it does not lack an idiom of loops
        have hnot : idiom ∉ [Idiom.enhancedFor, .reserve] := by
          intro hm
          rw [hasLoop_of_lacks hm hi hk] at hl
          cases hl
        revert hnot
        cases idiom <;> decide
      · have ht : (onOutput language).title = "Format Output" := rfl
        rw [ht]
        exact ⟨by decide, by decide⟩

/-- **Advice follows the growth of the snippet.** -/
theorem advise_follows (language : Language) (code : Text) :
    Follows language (growthProfile GrowthRule.standard language code).time.worst
      (advise language code (growthProfile GrowthRule.standard language code).time.worst) where
  exponential := by
    rw [GrowthRule.worst_eq_exponential_iff]
    constructor
    · exact fun h => onFibonacci_prefix_iff.mp h.opens
    · exact fun h => ⟨onFibonacci_prefix_iff.mpr h, titles_onFibonacci language _⟩
  quadratic := by
    intro hw
    have hd := GrowthRule.worst_eq_quadratic_iff.mp hw
    have hrec : GrowthRule.fibonacciRecursion.applies language code = false :=
      hd.earlier .fibonacciRecursion (by decide)
    have hr : ¬ language.hasRecursiveFibonacci code = true := by
      intro h
      rw [GrowthRule.applies, h] at hrec
      cases hrec
    have hn : language.hasNestedLoops code = true := hd.holds
    refine ⟨?_, titles_onNestedLoops language _⟩
    rw [advise, byShape, if_neg hr, if_pos hn]
    exact List.prefix_append _ _
  constant := by
    intro hw
    have hnone := GrowthRule.worst_eq_constant_iff.mp hw
    exact ⟨generic_prefix_iff.mpr ⟨hnone .fibonacciRecursion, hnone .singleLoop⟩, titles_generic⟩

/-- **Advice is generated for every language that is known**, with all of its samples, and it is in
order, unless loops are asked for that are nested too deep. Where none is generated, it is replaced
by the general advice. -/
theorem generate_lawful (frames : Nat) (code : Text) (value : Json) (profile : GrowthProfile) :
    ((∃ e, generate frames code value profile = .error e) ↔
      (∀ language, Language.parse value ≠ .ok language) ∨
        ∃ language, Language.parse value = .ok language ∧ MeasuresLoops language code ∧
          ¬ language.IsShallow frames code) ∧
    (Playground.insights code value profile frames =
      match generate frames code value profile with
      | .ok list => list
      | .error _ => generic) ∧
    ∀ language, Language.parse value = .ok language →
      (generate frames code value profile =
        if MeasuresLoops language code → language.IsShallow frames code then
          .ok (advise language code profile.time.worst)
        else .error (.stack .tooDeep)) ∧
      ∀ list, generate frames code value profile = .ok list →
        WellFormed language list ∧ Placed list ∧
        (growthProfileWithin frames GrowthRule.standard language code = .ok profile →
          Follows language profile.time.worst list) := by
  refine ⟨generate_error_iff frames code value profile,
    insights_eq_generate frames code value profile, ?_⟩
  intro language hp
  refine ⟨generate_of_parse hp frames code profile, ?_⟩
  intro list hlist
  rw [generate_of_parse hp] at hlist
  obtain rfl : advise language code profile.time.worst = list := by
    split at hlist
    · exact Except.ok.inj hlist
    · cases hlist
  refine ⟨advise_wellFormed language code _, advise_placed language code _, ?_⟩
  intro hprofile
  rw [growthProfile_of_within hprofile]
  exact advise_follows language code

/-- **No advice is generated about loops that are nested too deep**, even with all of the stack, and
the general advice takes its place. -/
theorem not_generated_row :
    Language.parse (.str "javascript") = .ok .javascript ∧
      generate stackLimit (rowOfLoops 6000) (.str "javascript") .constant =
        .error (.stack .tooDeep) ∧
      Playground.insights (rowOfLoops 6000) (.str "javascript") .constant stackLimit = generic := by
  have ho : Language.ofText? "javascript".toList = some .javascript := by decide
  have hl : Language.parse (.str "javascript") = .ok .javascript := by rw [Language.parse, ho]
  have hmeasures : MeasuresLoops .javascript (rowOfLoops 6000) :=
    Or.inl (Language.hasRecursiveFibonacci_row .javascript 6000)
  have hframes : stackLimit ≤ 5999 := by decide
  have hdeep : ¬ Language.javascript.IsShallow stackLimit (rowOfLoops 6000) :=
    not_isShallow_row rfl hframes
  have hgenerate : generate stackLimit (rowOfLoops 6000) (.str "javascript") .constant =
      .error (.stack .tooDeep) := by
    rw [generate_of_parse hl, if_neg fun hs => hdeep (hs hmeasures)]
  exact ⟨hl, hgenerate, by rw [insights_eq_generate, hgenerate]⟩

end Advice

end Snippet
