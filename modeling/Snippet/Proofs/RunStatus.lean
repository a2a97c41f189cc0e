import Snippet.Proofs.FibonacciNumber
import Snippet.Proofs.HeadersInRow
import Snippet.Proofs.Lookup
import Snippet.Proofs.RunResult

/-!
# When a run ends in an error

`run_answers`: a snippet in a known language that is run within the budget by the standard
detectors, with a greatest argument of at most 20000 and without a made-up failure, ends in an error
for one of these reasons (`Runner.Refuses`), and otherwise in a success with an output:

* its form is complained of,
* it is taken for a Fibonacci program, and the argument is greater than the greatest one,
* it is taken for a Fibonacci program, and the numeral of the argument has too many digits,
* it is not recognised before its loops are asked for, and they are nested too deep for the frames
  that are left.

A run whose budget or latency cannot be counted in seconds ends in an error, too. The last two
reasons are no properties of programs, but limits of how they are looked at
(`not_only_listed_errors`).

What a detector has recognised is still there when it is extracted (`extract_literalOutput`,
`extract_fibonacci`), so nothing else can go wrong between recognising and printing.
-/

namespace Snippet

/-! ### What the detectors extract -/

/-- The detector of the standard chain that decides on a snippet. -/
def Detector.winner? (language : Language) (code : Text) : Option Detector :=
  standard.find? (·.recognises language code)

theorem Literal.ne_nil_of_ofCalls? {calls : List PrintCall} {text : Text}
    (h : ofCalls? calls = some text) : text ≠ [] := by
  rw [ofCalls?] at h
  split at h
  · cases h
  · obtain ⟨pieces, -, h⟩ := Option.bind_eq_some_iff.mp h
    dsimp only at h
    split at h
    · cases h
    next hb =>
      cases h
      rintro he
      rw [he] at hb
      exact hb rfl

namespace Detector

variable {language : Language} {code : Text}

/-- **What is recognised as literal output is extracted, and it is not empty.** -/
theorem extract_literalOutput (h : recognises .literalOutput language code = true) :
    ∃ text, text ≠ [] ∧ language.literalOutput? code = some text ∧
      extract .literalOutput language code = .ok (.literalOutput text) := by
  obtain ⟨text, ht⟩ := Option.isSome_iff_exists.mp h
  exact ⟨text, Literal.ne_nil_of_ofCalls? ht, ht, by rw [extract, ht]; rfl⟩

theorem extract_of_limit_lt {numeral : Text} (h : language.fibonacciNumeral? code = some numeral)
    (hl : digitLimit < numeral.length) :
    extract .fibonacci language code = .error (.tooLongToRead numeral.length) := by
  rw [extract, Language.fibonacciArgument, h]
  dsimp only
  rw [Numeral.read, if_pos hl]
  rfl

/-- **An argument is extracted for every Fibonacci program, unless its numeral is too long.** -/
theorem extract_fibonacci (language : Language) (code : Text) :
    (∃ n wrapped, extract .fibonacci language code = .ok (.fibonacci n wrapped)) ∨
      ∃ numeral, language.fibonacciNumeral? code = some numeral ∧ digitLimit < numeral.length := by
  cases hn : language.fibonacciNumeral? code with
  | none =>
    refine Or.inl ⟨defaultFibonacciArgument, printsFibonacciCall language code, ?_⟩
    rw [extract, Language.fibonacciArgument, hn]
    rfl
  | some numeral =>
    by_cases hl : digitLimit < numeral.length
    · exact Or.inr ⟨numeral, rfl, hl⟩
    · refine Or.inl ⟨Numeral.value numeral, printsFibonacciCall language code, ?_⟩
      rw [extract, Language.fibonacciArgument, hn]
      dsimp only
      rw [Numeral.read, if_neg hl]
      rfl

theorem isShort_of_extract {n : Int} {wrapped : Bool}
    (h : extract .fibonacci language code = .ok (.fibonacci n wrapped)) : Numeral.IsShort n := by
  rw [extract, Language.fibonacciArgument] at h
  cases hn : language.fibonacciNumeral? code with
  | none =>
    rw [hn] at h
    cases h
    decide +kernel
  | some numeral =>
    rw [hn] at h
    dsimp only at h
    rw [Numeral.read] at h
    by_cases hl : digitLimit < numeral.length
    · rw [if_pos hl] at h
      cases h
    · rw [if_neg hl] at h
      cases h
      exact Numeral.isShort_value (Nat.not_lt.mp hl)

theorem recognises_of_winner? {detector : Detector} (h : winner? language code = some detector) :
    detector.recognises language code = true := by
  have hr := List.find?_some h
  exact hr

theorem not_measuresIn_of_winner? {detector : Detector}
    (hd : detector ∈ [blockingInput, literalOutput, fibonacci])
    (h : winner? language code = some detector) : ¬ MeasuresIn standard language code := by
  intro hm
  have hr := measuresIn_standard_iff.mp hm detector hd
  rw [recognises_of_winner? h] at hr
  cases hr

theorem winner?_literalOutput (hb : language.hasBlockingInput code = false)
    (hl : (language.literalOutput? code).isSome = true) :
    winner? language code = some .literalOutput := by
  have hn : recognises .blockingInput language code = false := hb
  have hr : recognises .literalOutput language code = true := hl
  simp only [winner?, standard, List.find?, hn, hr]

theorem winner?_fibonacci (hb : language.hasBlockingInput code = false)
    (hl : language.literalOutput? code = none) (hf : language.hasFibonacciShape code = true) :
    winner? language code = some .fibonacci := by
  have hn : recognises .blockingInput language code = false := hb
  have hn' : recognises .literalOutput language code = false := by rw [recognises, hl]; rfl
  have hr : recognises .fibonacci language code = true := hf
  simp only [winner?, standard, List.find?, hn, hn', hr]

end Detector

/-! ### Refusals -/

namespace Runner

variable (runner : Runner)

/-- The outputs with which a run that ends in time ends in an error, each with its reason. -/
inductive Refuses (language : Language) (code : Text) : String → Prop where
  /-- The form of the snippet is complained of. -/
  | form (diagnostic : Diagnostic)
      (diagnosed : language.diagnose runner.requireMain code = some diagnostic) :
      Refuses language code diagnostic.message
  /-- The snippet is taken for a Fibonacci program whose argument is too great. -/
  | argument (n : Int) (wrapped : Bool)
      (passed : language.diagnose runner.requireMain code = none)
      (won : Detector.winner? language code = some .fibonacci)
      (extracted : Detector.extract .fibonacci language code = .ok (.fibonacci n wrapped))
      (greater : runner.maximum < n) :
      Refuses language code (Synthesis.refusal runner.maximum n).message
  /-- The snippet is taken for a Fibonacci program whose numeral is too long. -/
  | digits (numeral : Text)
      (passed : language.diagnose runner.requireMain code = none)
      (won : Detector.winner? language code = some .fibonacci)
      (extracted : language.fibonacciNumeral? code = some numeral)
      (longer : digitLimit < numeral.length) :
      Refuses language code (NumeralError.tooLongToRead numeral.length).message
  /-- The snippet is not recognised before its loops are asked for, and they are nested too deep. -/
  | depth
      (passed : language.diagnose runner.requireMain code = none)
      (unrecognised : ∀ detector ∈ [Detector.blockingInput, .literalOutput, .fibonacci],
        detector.recognises language code = false)
      (deep : ¬ language.IsShallow runner.frames code) :
      Refuses language code StackError.tooDeep.message

/-- What a result says about a snippet: an error exactly for a refusal, with its output, and
otherwise a success with an output, which is the text itself where that is known. -/
structure Answers (language : Language) (code : Text) (result : RunResult) : Prop where
  error_iff : result.status = .error ↔ ∃ output, runner.Refuses language code output
  output_eq : ∀ output, runner.Refuses language code output → result.output = output
  of_not : (¬ ∃ output, runner.Refuses language code output) →
    result.status = .success ∧ result.output ≠ ""
  of_literal : language.diagnose runner.requireMain code = none →
    Detector.winner? language code = some .literalOutput →
    ∃ text, text ≠ [] ∧ language.literalOutput? code = some text ∧
      result.status = .success ∧ result.output = String.ofList text

variable {runner} {language : Language} {code : Text}

/-- **A snippet is refused for one reason only.** -/
theorem Refuses.eq {output output' : String} (h : runner.Refuses language code output)
    (h' : runner.Refuses language code output') : output = output' := by
  have hrecognised : Detector.winner? language code = some .fibonacci →
      ¬ ∀ detector ∈ [Detector.blockingInput, .literalOutput, .fibonacci],
        detector.recognises language code = false :=
    fun hw hu => Detector.not_measuresIn_of_winner? (by simp) hw
      (Detector.measuresIn_standard_iff.mpr hu)
  cases h with
  | form diagnostic hd =>
    cases h' with
    | form diagnostic' hd' =>
      obtain rfl := Option.some.inj (hd.symm.trans hd')
      rfl
    | argument n wrapped hp | digits numeral hp | depth hp => rw [hd] at hp; cases hp
  | argument n wrapped hp hw he =>
    cases h' with
    | form diagnostic hd => rw [hd] at hp; cases hp
    | argument n' wrapped' _ _ he' => rw [he] at he'; cases he'; rfl
    | digits numeral _ _ hn hl =>
      rw [Detector.extract_of_limit_lt hn hl] at he
      cases he
    | depth _ hu => exact absurd hu (hrecognised hw)
  | digits numeral hp hw hn hl =>
    cases h' with
    | form diagnostic hd => rw [hd] at hp; cases hp
    | argument n wrapped _ _ he =>
      rw [Detector.extract_of_limit_lt hn hl] at he
      cases he
    | digits numeral' _ _ hn' =>
      obtain rfl := Option.some.inj (hn.symm.trans hn')
      rfl
    | depth _ hu => exact absurd hu (hrecognised hw)
  | depth hp hu =>
    cases h' with
    | form diagnostic hd => rw [hd] at hp; cases hp
    | argument n wrapped _ hw | digits numeral _ hw => exact absurd hu (hrecognised hw)
    | depth => rfl

/-! ### What is printed -/

theorem print_of_standard (hc : runner.chain = Detector.standard)
    (hs : Detector.MeasuresIn Detector.standard language code →
      language.IsShallow runner.frames code) :
    runner.print language code = Except.mapError .synthesis
      (match Detector.winner? language code with
      | none => synthesize runner.maximum language .default
      | some detector =>
        match detector.extract language code with
        | .error e => .error (.numeral e)
        | .ok finding => synthesize runner.maximum language finding) := by
  rw [print, hc, classifyWithin_of_shallow hs, classify, Detector.winner?]
  cases Detector.standard.find? (·.recognises language code) with
  | none => rfl
  | some detector =>
    dsimp only
    cases detector.extract language code <;> rfl

theorem print_of_deep (hc : runner.chain = Detector.standard)
    (hm : Detector.MeasuresIn Detector.standard language code)
    (hd : ¬ language.IsShallow runner.frames code) :
    runner.print language code = .error (.stack .tooDeep) := by
  rw [print, hc, classifyWithin_of_deep hm hd]

theorem print_of_literal (hc : runner.chain = Detector.standard)
    (hw : Detector.winner? language code = some .literalOutput) :
    ∃ text, text ≠ [] ∧ language.literalOutput? code = some text ∧
      runner.print language code = .ok (String.ofList text) := by
  obtain ⟨text, hn, ht, he⟩ := Detector.extract_literalOutput (Detector.recognises_of_winner? hw)
  refine ⟨text, hn, ht, ?_⟩
  rw [print_of_standard hc fun hm => absurd hm (Detector.not_measuresIn_of_winner? (by simp) hw),
    hw]
  dsimp only
  rw [he]
  dsimp only
  rw [synthesize, if_neg (by rw [List.isEmpty_iff]; exact hn)]
  rfl

/-- **What is not taken for a Fibonacci program is printed**, where the frames suffice. -/
theorem print_of_ne_fibonacci (hc : runner.chain = Detector.standard)
    (hs : Detector.MeasuresIn Detector.standard language code →
      language.IsShallow runner.frames code)
    (hf : Detector.winner? language code ≠ some .fibonacci) :
    ∃ output, runner.print language code = .ok output := by
  cases hw : Detector.winner? language code with
  | none =>
    rw [print_of_standard hc hs, hw]
    exact ⟨_, rfl⟩
  | some detector =>
    cases detector with
    | fibonacci => exact absurd hw hf
    | literalOutput =>
      obtain ⟨text, _, _, hp⟩ := print_of_literal hc hw
      exact ⟨_, hp⟩
    | _ =>
      rw [print_of_standard hc hs, hw]
      exact ⟨_, rfl⟩

theorem print_of_fibonacci (hc : runner.chain = Detector.standard)
    (hw : Detector.winner? language code = some .fibonacci) :
    runner.print language code = Except.mapError .synthesis
      (match Detector.extract .fibonacci language code with
      | .error e => .error (.numeral e)
      | .ok finding => synthesize runner.maximum language finding) := by
  rw [print_of_standard hc fun hm => absurd hm (Detector.not_measuresIn_of_winner? (by simp) hw),
    hw]

/-- A Fibonacci program is refused for its argument, or its Fibonacci number is printed. -/
theorem print_of_fibonacci_of_extract (hc : runner.chain = Detector.standard)
    (hm : runner.maximum ≤ 20000) (hw : Detector.winner? language code = some .fibonacci) {n : Int}
    {wrapped : Bool}
    (he : Detector.extract .fibonacci language code = .ok (.fibonacci n wrapped)) :
    runner.print language code =
      if runner.maximum < n then .error (.synthesis (Synthesis.refusal runner.maximum n))
      else .ok (if wrapped then toString (Nat.fib n.toNat)
        else "Fibonacci(" ++ toString n ++ ") = " ++ toString (Nat.fib n.toNat)) := by
  rw [print_of_fibonacci hc hw, he]
  dsimp only
  rw [synthesize, Synthesis.fibonacciText_of_isShort hm (Detector.isShort_of_extract he)]
  split <;> rfl

/-- **Either a snippet is refused with what its result says, or it is printed.** -/
theorem refuses_or_success (hc : runner.chain = Detector.standard) (hm : runner.maximum ≤ 20000)
    {draw : Variability.Draw} (hf : runner.failure? draw = none) {result : RunResult}
    (h : Reports result (runner.attempt draw language code)) :
    (runner.Refuses language code result.output ∧ result.status = .error) ∨
      ((¬ ∃ output, runner.Refuses language code output) ∧ result.status = .success) := by
  rw [attempt, hf] at h
  cases hd : language.diagnose runner.requireMain code with
  | some diagnostic =>
    rw [hd] at h
    refine Or.inl ⟨?_, h.1⟩
    rw [h.2]
    exact .form diagnostic hd
  | none =>
    rw [hd] at h
    dsimp only at h
    by_cases hw : Detector.winner? language code = some .fibonacci
    · have hn := Detector.not_measuresIn_of_winner? (by simp) hw
      rcases Detector.extract_fibonacci language code with ⟨n, wrapped, he⟩ | ⟨numeral, hn, hl⟩
      · rw [print_of_fibonacci_of_extract hc hm hw he] at h
        by_cases hg : runner.maximum < n
        · rw [if_pos hg] at h
          refine Or.inl ⟨?_, h.1⟩
          rw [h.2]
          exact .argument n wrapped hd hw he hg
        · rw [if_neg hg] at h
          refine Or.inr ⟨?_, h.1⟩
          rintro ⟨output, hr⟩
          cases hr with
          | form diagnostic hd' => rw [hd] at hd'; cases hd'
          | argument n' wrapped' _ _ he' hg' => rw [he] at he'; cases he'; exact hg hg'
          | digits numeral _ _ hn hl =>
            rw [Detector.extract_of_limit_lt hn hl] at he
            cases he
          | depth _ hu => exact hn (Detector.measuresIn_standard_iff.mpr hu)
      · rw [print_of_fibonacci hc hw, Detector.extract_of_limit_lt hn hl] at h
        refine Or.inl ⟨?_, h.1⟩
        rw [h.2]
        exact .digits numeral hd hw hn hl
    · by_cases hs : Detector.MeasuresIn Detector.standard language code →
          language.IsShallow runner.frames code
      · obtain ⟨output, hp⟩ := print_of_ne_fibonacci hc hs hw
        rw [hp] at h
        refine Or.inr ⟨?_, h.1⟩
        rintro ⟨output, hr⟩
        cases hr with
        | form diagnostic hd' => rw [hd] at hd'; cases hd'
        | argument n wrapped _ hw' | digits numeral _ hw' => exact hw hw'
        | depth _ hu hdeep => exact hdeep (hs (Detector.measuresIn_standard_iff.mpr hu))
      · obtain ⟨hmeasures, hdeep⟩ := Classical.not_imp.mp hs
        rw [print_of_deep hc hmeasures hdeep] at h
        refine Or.inl ⟨?_, h.1⟩
        rw [h.2]
        exact .depth hd (Detector.measuresIn_standard_iff.mp hmeasures) hdeep

/-! ### The result of a run -/

/-- No lookup of a bracket or of parts is refused on the way to the output of a snippet. -/
structure LookUpsSucceed (language : Language) (code : Text) : Prop where
  calls : language.lookUpPrintCalls code = .ok (language.printCalls code)
  loops : lookUpLoopSpans (language.mask code) = .ok (loopSpans (language.mask code))
  definitions :
    lookUpDefinitions (language.mask code) = .ok (bracedDefinitions (language.mask code))

theorem lookUpsSucceed (language : Language) (code : Text) : LookUpsSucceed language code where
  calls := language.lookUpPrintCalls_eq code
  loops := lookUpLoopSpans_eq (language.mask code)
  definitions := lookUpDefinitions_eq (language.mask code)

/-- **A run within the budget by the standard detectors ends in an error exactly where its snippet
is refused**, if its times can be counted in seconds, and otherwise in an error that says they
cannot. It says what `Answers` tells, an argument is extracted unless its numeral is too long, and
no lookup is refused. -/
theorem run_answers {clock : Clock} {request : RunRequest} (hc : runner.chain = Detector.standard)
    (hm : runner.maximum ≤ 20000) (ht : runner.InBudget clock request.draw)
    (hf : runner.failure? request.draw = none) (hcode : request.code = some code)
    (hn : Text.isBlankText code = false) (hl : Language.parse request.language = .ok language) :
    ∃ result after, runner.run clock request = (.valid result, after) ∧
      (runner.overflows request.draw = true →
        result.status = .error ∧ result.output = RunError.overflow.message) ∧
      (runner.overflows request.draw = false → runner.Answers language code result) ∧
      LookUpsSucceed language code ∧
      ((∃ n wrapped, Detector.extract .fibonacci language code = .ok (.fibonacci n wrapped)) ∨
        ∃ numeral, language.fibonacciNumeral? code = some numeral ∧
          digitLimit < numeral.length) := by
  obtain ⟨result, after, hr, hrep⟩ := run_reports_of_inBudget ht hcode hn hl
  refine ⟨result, after, hr, fun ho => by rwa [ho] at hrep, fun ho => ?_,
    lookUpsSucceed language code, Detector.extract_fibonacci language code⟩
  have hattempt : Reports result (runner.attempt request.draw language code) := by
    rwa [ho] at hrep
  have hs := refuses_or_success hc hm hf hattempt
  refine ⟨?_, ?_, ?_, ?_⟩
  · rcases hs with ⟨hr, he⟩ | ⟨hr, he⟩
    · exact ⟨fun _ => ⟨_, hr⟩, fun _ => he⟩
    · refine ⟨fun h => ?_, fun h => absurd h hr⟩
      rw [he] at h
      cases h
  · intro output ho
    rcases hs with ⟨hr, _⟩ | ⟨hr, _⟩
    · exact hr.eq ho
    · exact absurd ⟨output, ho⟩ hr
  · intro hno
    rcases hs with ⟨hr, _⟩ | ⟨_, he⟩
    · exact absurd ⟨_, hr⟩ hno
    · exact ⟨he, result.output_ne (by rw [he]; rfl)⟩
  · intro hd hw
    obtain ⟨text, hne, htext, hp⟩ := print_of_literal hc hw
    rw [attempt, hd, hf] at hattempt
    dsimp only at hattempt
    rw [hp] at hattempt
    exact ⟨text, hne, htext, hattempt⟩

/-- A snippet with parentheses that are never closed, run on a clock that stands still. -/
theorem run_answers_unclosed :
    ({} : Runner).chain = Detector.standard ∧ ({} : Runner).maximum ≤ 20000 ∧
    ({} : Runner).InBudget [] {} ∧ ({} : Runner).failure? {} = none ∧
    Text.isBlankText "print((fib(3)".toList = false ∧
    Language.parse (.str "Python") = .ok .python ∧ ({} : Runner).overflows {} = false ∧
    ∃ result after,
      ({} : Runner).run [] ⟨some "print((fib(3)".toList, .str "Python", {}⟩ =
        (.valid result, after) ∧
      ({} : Runner).Answers .python "print((fib(3)".toList result := by
  have hm : ({} : Runner).maximum ≤ 20000 := by decide
  have ht : ({} : Runner).InBudget [] {} := ⟨by decide, by decide, 0, by decide, by decide⟩
  have hn : Text.isBlankText "print((fib(3)".toList = false := by decide
  have ho : Language.ofText? "Python".toList = some .python := by decide
  have hl : Language.parse (.str "Python") = .ok .python := by rw [Language.parse, ho]
  have hcount : ({} : Runner).overflows {} = false := by decide +kernel
  obtain ⟨result, after, hr, _, ha, _⟩ :=
    @run_answers {} .python "print((fib(3)".toList []
      ⟨some "print((fib(3)".toList, .str "Python", {}⟩ rfl hm ht rfl rfl hn hl
  exact ⟨rfl, hm, ht, rfl, hn, hl, hcount, result, after, hr, ha hcount⟩

/-! ### Errors that are no properties of programs -/

/-- **A row of loops that is long enough ends a run in an error.** -/
theorem run_row {clock : Clock} {draw : Variability.Draw} (hc : runner.chain = Detector.standard)
    (hm : runner.maximum ≤ 20000) (ht : runner.InTime clock draw)
    (hf : runner.failure? draw = none) {count : Nat} (h : runner.frames ≤ count) :
    ∃ result after, runner.run clock
      ⟨some (rowOfLoops (count + 1)), .str "javascript", draw⟩ = (.valid result, after) ∧
      result.status = .error := by
  have ho : Language.ofText? "javascript".toList = some .javascript := by decide
  have hl : Language.parse (.str "javascript") = .ok .javascript := by rw [Language.parse, ho]
  obtain ⟨result, after, hr, hrep⟩ :=
    @run_reports runner clock ⟨some (rowOfLoops (count + 1)), .str "javascript", draw⟩
      .javascript (rowOfLoops (count + 1)) ht rfl (isBlankText_row count) hl
  refine ⟨result, after, hr, ?_⟩
  have hrefused : runner.Refuses .javascript (rowOfLoops (count + 1)) _ :=
    .depth (Language.diagnose_row runner.requireMain (count + 1))
      (Detector.measuresIn_standard_iff.mp (Language.measuresIn_row (count + 1)))
      (not_isShallow_row rfl h)
  rcases refuses_or_success hc hm hf hrep with ⟨_, he⟩ | ⟨hno, _⟩
  · exact he
  · exact absurd ⟨_, hrefused⟩ hno

/-- **Loops that are nested too deep end a run in an error**, even if all of the stack is left, and
so does a budget that cannot be counted in seconds. Neither snippet has a fault of form or is taken
for a Fibonacci program. -/
theorem not_only_listed_errors :
    (({ frames := stackLimit } : Runner).InTime [] {} ∧
      Language.javascript.diagnose false (rowOfLoops 6000) = none ∧
      Detector.winner? .javascript (rowOfLoops 6000) ≠ some .fibonacci ∧
      ∃ result after, ({ frames := stackLimit } : Runner).run []
        ⟨some (rowOfLoops 6000), .str "javascript", {}⟩ = (.valid result, after) ∧
        result.status = .error) ∧
    ({ budget := 10 ^ 400 } : Runner).InBudget [] {} ∧
      Language.python.diagnose false "print(\"hi\")".toList = none ∧
      Detector.winner? .python "print(\"hi\")".toList ≠ some .fibonacci ∧
      ∃ result after, ({ budget := 10 ^ 400 } : Runner).run []
        ⟨some "print(\"hi\")".toList, .str "python", {}⟩ = (.valid result, after) ∧
        result.status = .error := by
  constructor
  · have ht : ({ frames := stackLimit } : Runner).InTime [] {} :=
      ⟨⟨by decide, by decide, 0, by decide, by decide⟩, by decide +kernel⟩
    have hw : Detector.winner? .javascript (rowOfLoops 6000) ≠ some .fibonacci := fun hw =>
      Detector.not_measuresIn_of_winner? (by simp) hw (Language.measuresIn_row 6000)
    have hframes : stackLimit ≤ 5999 := by decide
    exact ⟨ht, Language.diagnose_row false 6000, hw, run_row rfl (by decide) ht rfl hframes⟩
  · have ht : ({ budget := 10 ^ 400 } : Runner).InBudget [] {} :=
      ⟨by decide +kernel, by decide +kernel, 0, by decide, by decide +kernel⟩
    have ho : Language.ofText? "python".toList = some .python := by decide
    have hl : Language.parse (.str "python") = .ok .python := by rw [Language.parse, ho]
    have hcount : ({ budget := 10 ^ 400 } : Runner).overflows {} = true := by decide +kernel
    obtain ⟨result, after, hr, hrep⟩ :=
      @run_reports_of_inBudget { budget := 10 ^ 400 } []
        ⟨some "print(\"hi\")".toList, .str "python", {}⟩ .python "print(\"hi\")".toList ht rfl
        (by decide) hl
    rw [hcount] at hrep
    exact ⟨ht, by decide +kernel, by decide +kernel, result, after, hr, hrep.1⟩

end Runner

end Snippet
