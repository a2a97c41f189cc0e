import Snippet.Proofs.Deciding
import Snippet.Proofs.HiddenText
import Snippet.Proofs.LoopQuestions
import Snippet.Run

/-!
# What is read outside the mask

The form of a snippet is checked on its mask, and its kind is told from the mask and the print
calls.  Two lookups search the snippet itself: the check of a header looks for the name of the
header (`FormRule.check_of_need`), and one detector looks for a greeting (`hasHelloLiteral`).

For two snippets with the same mask and the same print calls, these lookups are all that can make a
difference, and they make one exactly when it is their turn:

* `diagnose_eq_iff`: the complaints agree if and only if the header that is looked for occurs in
  both snippets or in neither.
* `classify_eq_iff`: the findings of a chain agree if and only if the greeting that is looked for
  occurs in both snippets or in neither.
-/

namespace Snippet

open Pattern

/-! ### Complaints -/

/-- A header that a snippet needs if it has some mark, and the complaint if it is missing. -/
structure HeaderNeed where
  mark : Pattern
  header : Text
  missing : Diagnostic

namespace FormRule

variable {rule : FormRule} {need : HeaderNeed}

/-- The header that a check looks for. -/
def need? : FormRule → Option HeaderNeed
  | cppHeaders => some ⟨keyword "cout", "iostream".toList, .missingStreamHeader⟩
  | cHeaders => some ⟨Language.callOf "printf", "stdio.h".toList, .missingPrintHeader⟩
  | _ => none

/-- Whether a check complains of a snippet with a given mask. -/
def complains (rule : FormRule) (code mask : Text) : Bool :=
  (rule.check code mask).isSome

/-- **A check of a header looks for its mark in the mask, and for the header in the snippet.** -/
theorem check_of_need (h : rule.need? = some need) (code mask : Text) :
    rule.check code mask =
      if need.mark.occursIn mask && !Text.occurs need.header code then some need.missing
      else none := by
  cases rule <;> cases h <;> rfl

/-- **Any other check reads the mask only.** -/
theorem check_of_needless (h : rule.need? = none) (code code' mask : Text) :
    rule.check code mask = rule.check code' mask := by
  cases rule with
  | cppHeaders => cases h
  | cHeaders => cases h
  | _ => rfl

theorem complains_of_need (h : rule.need? = some need) (code mask : Text) :
    rule.complains code mask = (need.mark.occursIn mask && !Text.occurs need.header code) := by
  rw [complains, check_of_need h]
  cases need.mark.occursIn mask && !Text.occurs need.header code <;> rfl

end FormRule

namespace Diagnostic

/-- The check that a complaint comes from. -/
def rule : Diagnostic → FormRule
  | mismatchedBraces => .braceBalance
  | missingClass | missingMainMethod => .javaStructure
  | missingMainFunction => .cMain
  | missingStreamHeader => .cppHeaders
  | missingPrintHeader => .cHeaders
  | missingColon => .pythonBlockColon
  | unclosedParenthesis => .pythonPrintParens
  | endlessLoop => .unboundedLoop

/-- **Every complaint comes from a check of its own.** -/
theorem rule_of_check {rule : FormRule} {code mask : Text} {diagnostic : Diagnostic}
    (h : rule.check code mask = some diagnostic) : diagnostic.rule = rule := by
  cases rule with
  | javaStructure =>
    rw [FormRule.check] at h
    split at h
    · cases h
      rfl
    · split at h <;> cases h
      rfl
  | _ =>
    rw [FormRule.check] at h
    split at h <;> cases h
    rfl

end Diagnostic

namespace Language

variable {language : Language} {requireMain : Bool} {code code' : Text}

/-- The checks that are made in a language. -/
def formRules (language : Language) (requireMain : Bool) : List FormRule :=
  (FormRule.standard requireMain).filter (language ∈ ·.languages)

/-- Whether a check complains of a snippet. -/
def complains (language : Language) (code : Text) (rule : FormRule) : Bool :=
  rule.complains code (language.mask code)

/-- **The first check that complains is the one that the complaint comes from.** -/
theorem find?_complains (language : Language) (requireMain : Bool) (code : Text) :
    (language.formRules requireMain).find? (language.complains code) =
      (language.diagnose requireMain code).map Diagnostic.rule := by
  have main : ∀ rules : List FormRule, rules.find? (language.complains code) =
      (rules.findSome? (·.check code (language.mask code))).map Diagnostic.rule := by
    intro rules
    induction rules with
    | nil => rfl
    | cons rule rules ih =>
      cases hc : rule.check code (language.mask code) with
      | none =>
        have hn : ¬ language.complains code rule = true := by
          rw [complains, FormRule.complains, hc]
          decide
        rw [List.find?_cons_of_neg hn, List.findSome?_cons_of_isNone (by rw [hc]; rfl), ih]
      | some diagnostic =>
        have hy : language.complains code rule = true := by
          rw [complains, FormRule.complains, hc]
          rfl
        rw [List.find?_cons_of_pos hy, List.findSome?_cons_of_isSome (by rw [hc]; rfl), hc,
          Option.map_some, Diagnostic.rule_of_check hc]
  exact main (language.formRules requireMain)

/-- A header is looked for in a snippet: the snippet has its mark, and nothing ahead of its check
complains. -/
def AsksForHeader (language : Language) (requireMain : Bool) (code : Text) (need : HeaderNeed) :
    Prop :=
  ∃ rule, Reached (language.formRules requireMain) (language.complains code) rule ∧
    rule.need? = some need ∧ need.mark.occursIn (language.mask code) = true

/-- **The complaints about two snippets with one mask agree** exactly if the header that is looked
for occurs in both or in neither. -/
theorem diagnose_eq_iff (hm : language.mask code = language.mask code') :
    language.diagnose requireMain code = language.diagnose requireMain code' ↔
      ∀ need, language.AsksForHeader requireMain code need →
        Text.occurs need.header code = Text.occurs need.header code' := by
  constructor
  · rintro h need ⟨rule, hr, hn, hmark⟩
    have hfind : (language.formRules requireMain).find? (language.complains code) =
        (language.formRules requireMain).find? (language.complains code') := by
      rw [find?_complains, find?_complains, h]
    have hsame := find?_eq_find?_iff.mp hfind rule hr
    rw [complains, complains, ← hm, FormRule.complains_of_need hn, FormRule.complains_of_need hn,
      hmark, Bool.true_and, Bool.true_and] at hsame
    exact Bool.not_inj hsame
  · intro h
    rw [diagnose, diagnose, ← hm]
    apply findSome?_eq_of_reached
    intro rule hr
    cases hn : rule.need? with
    | none => exact FormRule.check_of_needless hn code code' _
    | some need =>
      rw [FormRule.check_of_need hn, FormRule.check_of_need hn]
      by_cases hmark : need.mark.occursIn (language.mask code) = true
      · rw [h need ⟨rule, hr, hn, hmark⟩]
      · rw [Bool.not_eq_true] at hmark
        rw [hmark, Bool.false_and, Bool.false_and]

end Language

/-! ### Findings -/

namespace Detector

variable {detector : Detector} {chain : List Detector} {language : Language} {code code' : Text}

/-- The greeting is looked for in a snippet: nothing ahead of its detector recognises anything, and
the snippet prints. -/
def AsksForGreeting (chain : List Detector) (language : Language) (code : Text) : Prop :=
  Reached chain (·.recognises language code) .helloWorld ∧ language.hasPrint code = true

/-- **A detector reads the mask and the print calls**, except for the one that looks for a
greeting. -/
theorem recognises_eq (hm : language.mask code = language.mask code')
    (hp : language.printCalls code = language.printCalls code') (hne : detector ≠ .helloWorld) :
    detector.recognises language code = detector.recognises language code' := by
  cases detector with
  | helloWorld => exact absurd rfl hne
  | literalOutput =>
    rw [recognises, recognises, Language.literalOutput?, Language.literalOutput?, hp]
  | loop => exact hasLoop_eq_of_mask_eq hm
  | iterationOutput =>
    rw [recognises, recognises, hasPrint_eq_of_mask_eq hm, hasArrayVocabulary_eq_of_mask_eq hm,
      hasLoop_eq_of_mask_eq hm]
  | bubbleSort =>
    rw [recognises, recognises, hasNestedLoops_eq_of_mask_eq hm, Language.hasSwap,
      Language.hasSwap, Language.hasAdjacentCompare, Language.hasAdjacentCompare,
      Language.mentionsBubble, Language.mentionsBubble, hm]
  | selectionSort =>
    rw [recognises, recognises, hasNestedLoops_eq_of_mask_eq hm, Language.hasSwap,
      Language.hasSwap, Language.hasMinimumSearch, Language.hasMinimumSearch, hm]
  | blockingInput =>
    rw [recognises, recognises, Language.hasBlockingInput, Language.hasBlockingInput, hm]
  | fibonacci =>
    simp only [recognises, Language.hasFibonacciShape, Language.mentionsFibonacci,
      Language.hasFibonacciSubtraction, hm]
  | factorial => simp only [recognises, Language.hasFactorialShape, hm]
  | recursion =>
    simp only [recognises, Language.hasRecursion, Language.recursiveNames, Language.definitions, hm]

/-- **What is extracted is read off the mask and the print calls.** -/
theorem extract_eq (hm : language.mask code = language.mask code')
    (hp : language.printCalls code = language.printCalls code') (detector : Detector) :
    detector.extract language code = detector.extract language code' := by
  cases detector with
  | blockingInput =>
    rw [extract, extract, Language.hasArithmetic, Language.hasArithmetic, hm]
  | literalOutput =>
    rw [extract, extract, Language.literalOutput?, Language.literalOutput?, hp]
  | fibonacci =>
    simp only [extract, Language.fibonacciArgument, Language.fibonacciNumeral?,
      printsFibonacciCall, hm, hp]
  | _ => rfl

/-- The detector that decides can be told from what the chain says: only the argument of a Fibonacci
program may fail to be extracted. -/
theorem find?_recognises (chain : List Detector) (language : Language) (code : Text) :
    chain.find? (·.recognises language code) =
      match classify chain language code with
      | .ok found => found.detector
      | .error _ => some .fibonacci := by
  rw [classify]
  cases chain.find? (·.recognises language code) with
  | none => rfl
  | some detector =>
    dsimp only
    cases he : detector.extract language code with
    | ok finding => rfl
    | error e =>
      cases detector with
      | fibonacci => rfl
      | _ => cases he

/-- **The findings about two snippets with one mask and the same print calls agree** exactly if the
greeting that is looked for occurs in both or in neither. -/
theorem classify_eq_iff (hm : language.mask code = language.mask code')
    (hp : language.printCalls code = language.printCalls code') :
    classify chain language code = classify chain language code' ↔
      (AsksForGreeting chain language code → hasHelloLiteral code = hasHelloLiteral code') := by
  constructor
  · rintro h ⟨hr, hprint⟩
    have hfind : chain.find? (·.recognises language code) =
        chain.find? (·.recognises language code') := by
      rw [find?_recognises, find?_recognises, h]
    have hsame := find?_eq_find?_iff.mp hfind .helloWorld hr
    rwa [recognises, recognises, ← hasPrint_eq_of_mask_eq hm, hprint, Bool.true_and,
      Bool.true_and] at hsame
  · intro h
    have hfind : chain.find? (·.recognises language code) =
        chain.find? (·.recognises language code') := by
      apply find?_eq_find?_iff.mpr
      intro detector hr
      by_cases hd : detector = .helloWorld
      · subst hd
        rw [recognises, recognises, ← hasPrint_eq_of_mask_eq hm]
        cases hprint : language.hasPrint code with
        | false => rfl
        | true => rw [h ⟨hr, hprint⟩]
      · exact recognises_eq hm hp hd
    rw [classify, classify, hfind]
    cases chain.find? (·.recognises language code') with
    | none => rfl
    | some detector =>
      dsimp only
      rw [extract_eq hm hp]

theorem measuresLoops_eq (hm : language.mask code = language.mask code') (detector : Detector) :
    detector.measuresLoops language code = detector.measuresLoops language code' := by
  cases detector with
  | iterationOutput =>
    rw [measuresLoops, measuresLoops, hasPrint_eq_of_mask_eq hm,
      hasArrayVocabulary_eq_of_mask_eq hm]
  | _ => rfl

theorem measuresIn_of_classify_eq (hm : language.mask code = language.mask code')
    (hc : classify chain language code = classify chain language code')
    (h : MeasuresIn chain language code) : MeasuresIn chain language code' := by
  have hfind : chain.find? (·.recognises language code) =
      chain.find? (·.recognises language code') := by
    rw [find?_recognises, find?_recognises, hc]
  obtain ⟨detector, hr, hmeasures⟩ := h
  refine ⟨detector, hr.congr (find?_eq_find?_iff.mp hfind), ?_⟩
  rwa [← measuresLoops_eq hm]

/-- **Loops are nested too deep in both of two snippets with one mask, or in neither**, so findings
that agree without a limit agree with one. -/
theorem classifyWithin_eq (hm : language.mask code = language.mask code')
    (hc : classify chain language code = classify chain language code') (frames : Nat) :
    classifyWithin frames chain language code = classifyWithin frames chain language code' := by
  have hshallow : language.IsShallow frames code ↔ language.IsShallow frames code' := by
    rw [Language.IsShallow, Language.IsShallow, hm]
  by_cases hs : MeasuresIn chain language code → language.IsShallow frames code
  · have hs' : MeasuresIn chain language code' → language.IsShallow frames code' :=
      fun h => hshallow.mp (hs (measuresIn_of_classify_eq hm.symm hc.symm h))
    rw [classifyWithin_of_shallow hs, classifyWithin_of_shallow hs', hc]
  · obtain ⟨hmeasures, hdeep⟩ := Classical.not_imp.mp hs
    rw [classifyWithin_of_deep hmeasures hdeep,
      classifyWithin_of_deep (measuresIn_of_classify_eq hm hc hmeasures) (mt hshallow.mpr hdeep)]

end Detector

end Snippet
