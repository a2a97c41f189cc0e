import Snippet.Proofs.PrintedRanges
import Snippet.Proofs.RunStatus
import Snippet.Proofs.UnmaskedReads

/-!
# What a comment can change

A line comment is blanked in the mask, and outside the arguments of the print calls the mask is all
that is read, but for two lookups in the snippet itself.  So another text of the same length in a
comment leaves the form, the kind and the result of a snippet as they are exactly if these lookups
do not tell the two texts apart (`CommentExchange.reportsAlike_iff`).

They do tell some texts apart (`not_reportsAlike_comments`): a comment can stand in for the header
of the output stream, and it can make a greeting of a program.
-/

namespace Snippet

namespace Language

/-- A snippet with a line comment in front of `rest`. -/
def commented (language : Language) (front text rest : Text) : Text :=
  front ++ (language.commentOpener ++ text ++ rest)

/-- A line comment with two texts of one length for it. It starts where a token does, reaches to the
end of its line, and stands outside the arguments of every print call. -/
structure CommentExchange (language : Language) (front text text' rest : Text) : Prop where
  cut : language.CutAt (language.commented front text rest) front.length
  ends : rest = [] ∨ rest.head? = some '\n'
  unbroken : '\n' ∉ text
  unbroken' : '\n' ∉ text'
  length_eq : text.length = text'.length
  outside : ∀ range ∈ language.argumentRanges (language.mask (language.commented front text rest)),
    range.2 ≤ front.length ∨
      front.length + (language.commentOpener ++ text).length ≤ range.1

variable {language : Language} {front text text' rest : Text}

theorem isBlankText_commented (language : Language) (front text rest : Text) :
    Text.isBlankText (language.commented front text rest) = false := by
  have hopener : ∃ c ∈ language.commentOpener, isBlank c = false := by
    cases language <;> decide
  obtain ⟨c, hc, hb⟩ := hopener
  refine Text.isBlankText_eq_false ?_ hb
  simp [commented, hc]

namespace CommentExchange

theorem exchangeable (h : language.CommentExchange front text text' rest) :
    Cover.lineComment.Exchangeable language text text' where
  length_eq := h.length_eq
  lineFeed_iff i := by
    constructor <;> intro hi
    · exact absurd (List.mem_of_getElem? hi) h.unbroken
    · exact absurd (List.mem_of_getElem? hi) h.unbroken'
  hides := h.unbroken
  hides' := h.unbroken'

/-- **The mask does not tell what a comment says.** -/
theorem mask_eq (h : language.CommentExchange front text text' rest) :
    language.mask (language.commented front text rest) =
      language.mask (language.commented front text' rest) := by
  have hopener : language.commentOpener ≠ [] := by cases language <;> decide
  have hhead : (language.commentOpener ++ text' ++ rest).head? =
      (language.commentOpener ++ text ++ rest).head? := by
    cases language <;> rfl
  have hcut : language.CutAt (front ++ (language.commentOpener ++ text ++ rest)) front.length :=
    h.cut
  obtain ⟨shown, hshown⟩ := exists_mask_append hcut (by simp [hopener])
  rw [commented, commented, hshown _ rfl, hshown _ hhead, mask_comment_append h.unbroken h.ends,
    mask_comment_append h.unbroken' h.ends, List.map_append, List.map_append,
    h.exchangeable.map_blanked_eq]

/-- **The print calls do not tell what a comment outside of them says.** -/
theorem printCalls_eq (h : language.CommentExchange front text text' rest) :
    language.printCalls (language.commented front text rest) =
      language.printCalls (language.commented front text' rest) := by
  have hlen : (language.commentOpener ++ text).length =
      (language.commentOpener ++ text').length := by
    rw [List.length_append, List.length_append, h.length_eq]
  apply printCalls_eq_of_agreeOn h.mask_eq
  intro range hr
  exact Text.agreeOn_of_outside hlen (h.outside range hr)

end CommentExchange

end Language

/-! ### Reports -/

namespace Runner

variable {runner : Runner} {language : Language} {code code' : Text}

/-- Two snippets have the same complaint, are found to be the same, and give the same results on
every clock, whatever is drawn. -/
structure ReportsAlike (runner : Runner) (language : Language) (code code' : Text) : Prop where
  diagnose_eq : language.diagnose runner.requireMain code =
    language.diagnose runner.requireMain code'
  classify_eq : classify runner.chain language code = classify runner.chain language code'
  run_eq : ∀ (clock : Clock) (named : Json) (draw : Variability.Draw),
    Language.parse named = .ok language →
      runner.run clock ⟨some code, named, draw⟩ = runner.run clock ⟨some code', named, draw⟩

/-- What is looked for in the snippets themselves, and not in their masks, occurs in both of two
snippets or in neither. -/
structure LooksUpAlike (runner : Runner) (language : Language) (code code' : Text) : Prop where
  header : ∀ need, language.AsksForHeader runner.requireMain code need →
    Text.occurs need.header code = Text.occurs need.header code'
  greeting : Detector.AsksForGreeting runner.chain language code →
    hasHelloLiteral code = hasHelloLiteral code'

theorem looksUpAlike_of_occurs
    (hstream : Text.occurs "iostream".toList code = Text.occurs "iostream".toList code')
    (hprint : Text.occurs "stdio.h".toList code = Text.occurs "stdio.h".toList code')
    (hhello : hasHelloLiteral code = hasHelloLiteral code') :
    runner.LooksUpAlike language code code' where
  header := by
    rintro need ⟨rule, -, hn, -⟩
    cases rule with
    | cppHeaders =>
      cases hn
      exact hstream
    | cHeaders =>
      cases hn
      exact hprint
    | _ => cases hn
  greeting _ := hhello

/-- **The result of a run depends on the complaint and on what is found.** -/
theorem run_eq_of_attempt {draw : Variability.Draw} {named : Json}
    (hb : Text.isBlankText code = false)
    (hb' : Text.isBlankText code' = false) (hl : Language.parse named = .ok language)
    (h : runner.attempt draw language code = runner.attempt draw language code') (clock : Clock) :
    runner.run clock ⟨some code, named, draw⟩ = runner.run clock ⟨some code', named, draw⟩ := by
  have hrace : runner.race draw named code = runner.race draw named code' := by
    rw [race, race, hl]
    dsimp only
    rw [h]
  rw [run, run]
  dsimp only
  rw [isBlank, isBlank, Option.all_some, Option.all_some, hb, hb', Option.getD_some,
    Option.getD_some, hrace]

theorem attempt_eq (hm : language.mask code = language.mask code')
    (hd : language.diagnose runner.requireMain code = language.diagnose runner.requireMain code')
    (hc : classify runner.chain language code = classify runner.chain language code')
    (draw : Variability.Draw) :
    runner.attempt draw language code = runner.attempt draw language code' := by
  rw [attempt, attempt, hd, print, print, Detector.classifyWithin_eq hm hc]

/-- **A complaint is seen in the result**: in time, no snippet that is complained of gives the same
result as one that is printed. -/
theorem run_ne_of_diagnose {clock : Clock} {draw : Variability.Draw} {named : Json}
    (ht : runner.InTime clock draw) (hl : Language.parse named = .ok language)
    (hb : Text.isBlankText code = false) (hb' : Text.isBlankText code' = false)
    {output : String} (hp : runner.attempt draw language code = .printed output)
    {diagnostic : Diagnostic}
    (hd : language.diagnose runner.requireMain code' = some diagnostic) :
    runner.run clock ⟨some code, named, draw⟩ ≠ runner.run clock ⟨some code', named, draw⟩ := by
  obtain ⟨result, after, hr, hrep⟩ :=
    @run_reports runner clock ⟨some code, named, draw⟩ language code ht rfl hb hl
  obtain ⟨result', after', hr', hrep'⟩ :=
    @run_reports runner clock ⟨some code', named, draw⟩ language code' ht rfl hb' hl
  dsimp only at hrep hrep'
  rw [hp] at hrep
  rw [attempt, hd] at hrep'
  rw [hr, hr']
  intro heq
  have hstatus : result.status = result'.status := by
    cases heq
    rfl
  rw [hrep.1, hrep'.1] at hstatus
  cases hstatus

end Runner

namespace Language.CommentExchange

variable {language : Language} {front text text' rest : Text}

/-- **A comment changes what is reported of a snippet exactly by what is looked up in it**: by the
name of a header whose check is reached, or by a greeting whose detector is. -/
theorem reportsAlike_iff (h : language.CommentExchange front text text' rest) (runner : Runner) :
    runner.ReportsAlike language (language.commented front text rest)
        (language.commented front text' rest) ↔
      runner.LooksUpAlike language (language.commented front text rest)
        (language.commented front text' rest) := by
  constructor
  · intro hr
    exact ⟨(diagnose_eq_iff h.mask_eq).mp hr.diagnose_eq,
      (Detector.classify_eq_iff h.mask_eq h.printCalls_eq).mp hr.classify_eq⟩
  · intro hl
    have hd := (diagnose_eq_iff h.mask_eq).mpr hl.header
    have hc := (Detector.classify_eq_iff h.mask_eq h.printCalls_eq).mpr hl.greeting
    refine ⟨hd, hc, ?_⟩
    intro clock named draw hn
    exact Runner.run_eq_of_attempt (isBlankText_commented language front text rest)
      (isBlankText_commented language front text' rest) hn
      (Runner.attempt_eq h.mask_eq hd hc draw) clock

/-- With the header at hand a comment may speak of it or not. -/
theorem reportsAlike_iff_included :
    let front := "int main() \x7b cout << x + 1; \x7d ".toList
    let rest := "\n#include <iostream>".toList
    Language.cpp.CommentExchange front " iostream".toList " a stream".toList rest ∧
      ({} : Runner).ReportsAlike .cpp (Language.cpp.commented front " iostream".toList rest)
        (Language.cpp.commented front " a stream".toList rest) := by
  intro front rest
  have hplain : ∀ c ∈ front, isPlain c = true := by decide
  have h : Language.cpp.CommentExchange front " iostream".toList " a stream".toList rest := {
    cut := cutAt_of_plain hplain _
    ends := Or.inr rfl
    unbroken := by decide
    unbroken' := by decide
    length_eq := by decide
    outside := by decide +kernel }
  refine ⟨h, (reportsAlike_iff h {}).mpr ?_⟩
  apply Runner.looksUpAlike_of_occurs
  · decide
  · decide
  · decide +kernel

/-- **Comments tell**: the name of a header in a comment keeps back a complaint and changes the
result of a run, and a greeting in a comment changes what the snippet is found to be. -/
theorem not_reportsAlike_comments :
    (let front := "int main() \x7b cout << 1; \x7d ".toList
      let code := Language.cpp.commented front " iostream".toList []
      let code' := Language.cpp.commented front " aaaaaaaa".toList []
      Language.cpp.CommentExchange front " iostream".toList " aaaaaaaa".toList [] ∧
        Language.cpp.diagnose false code = none ∧
        Language.cpp.diagnose false code' = some .missingStreamHeader ∧
        ({} : Runner).run [] ⟨some code, .str "cpp", {}⟩ ≠
          ({} : Runner).run [] ⟨some code', .str "cpp", {}⟩) ∧
    (let front := "print(x + 1) ".toList
      let code := Language.python.commented front " \"Hello".toList []
      let code' := Language.python.commented front " aaaaaa".toList []
      Language.python.CommentExchange front " \"Hello".toList " aaaaaa".toList [] ∧
        classify Detector.standard .python code = .ok ⟨some .helloWorld, .helloWorld⟩ ∧
        classify Detector.standard .python code' = .ok ⟨none, .default⟩) := by
  constructor
  · intro front code code'
    have hplain : ∀ c ∈ front, isPlain c = true := by decide
    have hd : Language.cpp.diagnose false code = none := by decide +kernel
    have hd' : Language.cpp.diagnose false code' = some .missingStreamHeader := by decide +kernel
    have hw : Detector.winner? .cpp code = some .literalOutput := by decide +kernel
    refine ⟨⟨cutAt_of_plain hplain _, Or.inl rfl, by decide, by decide, by decide,
      by decide +kernel⟩, hd, hd', ?_⟩
    have ht : ({} : Runner).InTime [] {} :=
      ⟨⟨by decide, by decide, 0, by decide, by decide⟩, by decide +kernel⟩
    have ho : Language.ofText? "cpp".toList = some .cpp := by decide
    have hl : Language.parse (.str "cpp") = .ok .cpp := by rw [Language.parse, ho]
    have hf : ({} : Runner).failure? {} = none := rfl
    obtain ⟨text, -, -, hp⟩ := @Runner.print_of_literal {} .cpp code rfl hw
    apply Runner.run_ne_of_diagnose ht hl (isBlankText_commented .cpp front " iostream".toList [])
      (isBlankText_commented .cpp front " aaaaaaaa".toList []) _ hd'
    · exact String.ofList text
    · rw [Runner.attempt, hd, hf]
      dsimp only
      rw [hp]
  · intro front code code'
    have hplain : ∀ c ∈ front, isPlain c = true := by decide
    have hw : Detector.standard.find? (·.recognises .python code) = some .helloWorld := by
      decide +kernel
    have hw' : Detector.standard.find? (·.recognises .python code') = none := by decide +kernel
    refine ⟨⟨cutAt_of_plain hplain _, Or.inl rfl, by decide, by decide, by decide,
      by decide +kernel⟩, ?_, ?_⟩
    · rw [classify, hw]
      rfl
    · rw [classify, hw']

end Language.CommentExchange

end Snippet
