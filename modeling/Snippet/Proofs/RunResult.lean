import Mathlib.Tactic
import Snippet.Run

/-!
# Every run has a result

`run_valid`: whatever the snippet, the language, the detectors, the variability and the clock, a run
with a budget that is not negative ends in a valid result, as long as the clock can tell how long it
took. The result is no `running`, has an output, and keeps to the budget (`Runner.Allows`):

* a timeout takes exactly the budget and says nothing but the budget,
* a success takes no longer than the budget, nor does a diagnostic that is reported as such. Where
  budget or latency cannot be counted in seconds, this is reported in place of the diagnostic.

The proof runs over the endings of an attempt. `Ending.HasText` says that whatever an ending reports
is not empty; `hasText_race` proves it for the race by going through all the texts that the library
can make up, and `conclude_valid` turns such an ending into a result.
-/

namespace Snippet

open Schema

/-! ### Texts that are never empty -/

theorem Diagnostic.message_ne (diagnostic : Diagnostic) : diagnostic.message ≠ "" := by
  cases diagnostic <;> decide

theorem NumeralError.message_ne (e : NumeralError) : e.message ≠ "" := by
  unfold message limitMessage
  cases e <;> simp [String.append_eq_empty_iff]

theorem SynthesisError.message_ne (e : SynthesisError) : e.message ≠ "" := by
  unfold message
  cases e with
  | noText => decide
  | argumentTooLarge n maximum => simp [String.append_eq_empty_iff]
  | numeral e => exact e.message_ne

theorem StackError.message_ne (e : StackError) : e.message ≠ "" := by
  cases e
  decide

theorem Language.Unsupported.message_ne (e : Language.Unsupported) : e.message ≠ "" := by
  unfold message
  simp [String.append_eq_empty_iff]

theorem timeoutMessage_ne (budget : Int) : Runner.timeoutMessage budget ≠ "" := by
  unfold Runner.timeoutMessage
  simp [String.append_eq_empty_iff]

theorem toString_int_ne (n : Int) : toString n ≠ "" := by
  cases n with
  | ofNat n =>
    intro he
    have hd : (Nat.repr n).toList = [] := congrArg String.toList he
    rw [Nat.toList_repr] at hd
    exact Nat.toDigits_ne_nil hd
  | negSucc n =>
    show "-" ++ Nat.repr (n + 1) ≠ ""
    simp [String.append_eq_empty_iff]

theorem written_ne {n : Int} {value : String} (h : Synthesis.written n = .ok value) :
    value ≠ "" := by
  rw [Synthesis.written, Numeral.write] at h
  split at h
  · cases h
  · cases h
    exact toString_int_ne n

theorem exists_of_bind_ok {α β ε : Type} {step : Except ε α} {more : α → Except ε β} {b : β}
    (h : step >>= more = .ok b) : ∃ a, step = .ok a ∧ more a = .ok b := by
  cases step with
  | error e => cases h
  | ok a => exact ⟨a, rfl, h⟩

theorem fibonacciText_ne {maximum n : Int} {wrapped : Bool} {output : String}
    (h : Synthesis.fibonacciText maximum n wrapped = .ok output) : output ≠ "" := by
  rw [Synthesis.fibonacciText] at h
  split at h
  · obtain ⟨_, _, h⟩ := exists_of_bind_ok h
    obtain ⟨_, _, h⟩ := exists_of_bind_ok h
    cases h
  · split at h
    · exact written_ne h
    · obtain ⟨argument, _, h⟩ := exists_of_bind_ok h
      obtain ⟨value, _, h⟩ := exists_of_bind_ok h
      cases h
      simp [String.append_eq_empty_iff]

/-- **What is made up for a program is never empty.** -/
theorem synthesize_ne {maximum : Int} {language : Language} {finding : Finding} {output : String}
    (h : synthesize maximum language finding = .ok output) : output ≠ "" := by
  cases finding with
  | blockingInput arithmetic =>
    cases h
    unfold Synthesis.inputText
    simp [String.append_eq_empty_iff]
  | literalOutput text =>
    rw [synthesize] at h
    split at h
    · cases h
    next ht =>
      cases h
      intro he
      exact ht (List.isEmpty_iff.mpr (String.ofList_injective he))
  | fibonacci n wrapped =>
    rw [synthesize] at h
    exact fibonacciText_ne h
  | bubbleSort | selectionSort =>
    cases h
    unfold Synthesis.sortText
    simp [String.append_eq_empty_iff]
  | helloWorld => cases h; decide
  | iterationOutput =>
    cases h
    unfold Language.arrayText
    cases language <;>
      simp [Language.bracketsArrays, Synthesis.iterationSample, String.append_eq_empty_iff]
  | factorial =>
    cases h
    unfold Synthesis.factorialText
    cases language <;> simp [String.append_eq_empty_iff]
  | loop => cases h; cases language <;> decide
  | recursion => cases h; cases language <;> decide
  | default => cases h; cases language <;> decide

/-! ### Endings -/

/-- Whatever the ending reports is not empty. -/
def Ending.HasText : Ending → Prop
  | .printed output => output ≠ ""
  | .diagnosed _ => True
  | .broken e => e.message ≠ ""
  | .cutOff => True

/-- The time that a clock shows between its next reading and the one after it. -/
def Clock.taken? (clock : Clock) : Option Nat :=
  elapsed? clock.next.1 clock.next.2.next.1

namespace Runner

variable (runner : Runner)

theorem failure_ne {draw : Variability.Draw} {message : String}
    (h : runner.failure? draw = some message) : message ≠ "" := by
  have hf := (Option.filter_eq_some_iff.mp h).2
  simpa using hf

/-- A snippet prints something, or it is said why not. -/
theorem print_cases (language : Language) (code : Text) :
    (∃ output, runner.print language code = .ok output ∧ output ≠ "") ∨
      ∃ e, runner.print language code = .error e ∧ e.message ≠ "" := by
  rw [print]
  split
  next e _ => exact Or.inr ⟨_, rfl, e.message_ne⟩
  next e _ => exact Or.inr ⟨_, rfl, e.message_ne⟩
  next found _ =>
    cases hs : synthesize runner.maximum language found.finding with
    | error e => exact Or.inr ⟨_, rfl, e.message_ne⟩
    | ok output => exact Or.inl ⟨_, rfl, synthesize_ne hs⟩

/-- An attempt reports something, whichever of its steps it ends at. -/
theorem hasText_attempt (draw : Variability.Draw) (language : Language) (code : Text) :
    (runner.attempt draw language code).HasText := by
  rw [attempt]
  split
  · trivial
  · split
    next message hm => exact runner.failure_ne hm
    next =>
      rcases runner.print_cases language code with ⟨output, hp, hn⟩ | ⟨e, hp, hn⟩
      · rw [hp]
        exact hn
      · rw [hp]
        exact hn

theorem hasText_race (draw : Variability.Draw) (language : Json) (code : Text) :
    (runner.race draw language code).HasText := by
  have hoverflow : RunError.overflow.message ≠ "" := by decide
  rw [race]
  split
  · exact hoverflow
  · split
    · trivial
    · split
      next e _ => exact e.message_ne
      next =>
        split
        · exact hoverflow
        · split
          · trivial
          · exact runner.hasText_attempt draw _ code

/-- Whether the budget or the latency cannot be counted in seconds. -/
def overflows (draw : Variability.Draw) : Bool :=
  !Clock.inSeconds runner.budget || !Clock.inSeconds (runner.variability.latency draw)

/-- **A race in a known language comes to what the attempt comes to**, unless it is cut off or its
times cannot be counted in seconds. -/
theorem race_cases (draw : Variability.Draw) {named : Json} {language : Language}
    (hl : Language.parse named = .ok language) (code : Text) :
    runner.race draw named code = .cutOff ∨
      runner.race draw named code =
        if runner.overflows draw then .broken .overflow else runner.attempt draw language code := by
  rw [race, overflows, hl]
  cases Clock.inSeconds runner.budget with
  | false => exact Or.inr rfl
  | true =>
    by_cases hb : runner.budget ≤ 0
    · simp [hb]
    · cases Clock.inSeconds (runner.variability.latency draw) <;>
        cases runner.isHeldUp draw <;> simp [hb]

/-! ### From endings to results -/

/-- What a result that took `time` milliseconds keeps to: it is final, it has an output, and it
stands in the right relation to the budget. -/
structure Allows (result : RunResult) (time : Nat) : Prop where
  time_eq : result.time = some time
  status_ne : result.status ≠ .running
  output_ne : result.output ≠ ""
  of_timeout : result.status = .timeout →
    (time : Int) = runner.budget ∧ result.output = timeoutMessage runner.budget
  of_success : result.status = .success → (time : Int) ≤ runner.budget

theorem timed_eq {status : Status} {output : String} (ho : output ≠ "") {time : Int}
    (ht : 0 ≤ time) :
    RunResult.timed status output time = .valid ⟨status, output, some time.toNat, fun _ => ho⟩ := by
  rw [RunResult.timed, if_neg (by omega), RunResult.build, dif_pos fun _ => ho]

variable {runner} in
theorem timedOut_eq (hb : 0 ≤ runner.budget) :
    runner.timedOut = .valid ⟨.timeout, timeoutMessage runner.budget, some runner.budget.toNat,
      fun _ => timeoutMessage_ne runner.budget⟩ :=
  timed_eq (timeoutMessage_ne runner.budget) hb

variable {runner} in
theorem allows_timedOut (hb : 0 ≤ runner.budget) :
    runner.Allows ⟨.timeout, timeoutMessage runner.budget, some runner.budget.toNat,
      fun _ => timeoutMessage_ne runner.budget⟩ runner.budget.toNat where
  time_eq := rfl
  status_ne h := by cases h
  output_ne := timeoutMessage_ne runner.budget
  of_timeout _ := ⟨by omega, rfl⟩
  of_success h := by cases h

theorem allows_error {message : String} (hm : message ≠ "") (time : Nat) :
    runner.Allows ⟨.error, message, some time, fun _ => hm⟩ time where
  time_eq := rfl
  status_ne h := by cases h
  output_ne := hm
  of_timeout h := by cases h
  of_success h := by cases h

variable {runner} in
/-- What ends by itself with a text has a result: the text as it is, or a timeout. -/
theorem finish_valid (hb : 0 ≤ runner.budget) (status : Status) (hs : status.needsOutput = true)
    {output : String} (ho : output ≠ "") (time : Nat) :
    ∃ result taken, runner.finish status output time = .valid result ∧ runner.Allows result taken ∧
      (result.status ≠ .timeout → result.output = output ∧ (taken : Int) ≤ runner.budget) := by
  rw [finish]
  split
  · exact ⟨_, _, timedOut_eq hb, allows_timedOut hb, fun h => absurd rfl h⟩
  next ht =>
    refine ⟨_, time, timed_eq ho (Int.natCast_nonneg time), ⟨rfl, ?_, ho, ?_, ?_⟩, ?_⟩
    · rintro rfl
      cases hs
    · rintro rfl
      cases hs
    · intro _
      omega
    · intro _
      exact ⟨rfl, by omega⟩

variable {runner} in
/-- **Every ending with a text becomes a valid result.** A diagnostic that is reported as an error
is reported within the budget, and what broke an attempt off is reported at any time. -/
theorem conclude_valid (hb : 0 ≤ runner.budget) {ending : Ending} (h : ending.HasText)
    (time : Nat) :
    ∃ result taken, runner.conclude time ending = .valid result ∧ runner.Allows result taken ∧
      (∀ diagnostic, ending = .diagnosed diagnostic → result.status = .error →
        result.output = diagnostic.message ∧ (taken : Int) ≤ runner.budget) ∧
      ∀ e, ending = .broken e → result.output = e.message := by
  cases ending with
  | printed output =>
    obtain ⟨result, taken, hr, ha, _⟩ := finish_valid hb .success rfl h time
    exact ⟨result, taken, hr, ha, nofun, nofun⟩
  | diagnosed diagnostic =>
    obtain ⟨result, taken, hr, ha, ho⟩ :=
      finish_valid hb .error rfl diagnostic.message_ne time
    refine ⟨result, taken, hr, ha, ?_, nofun⟩
    rintro _ ⟨⟩ hs
    exact ho (by rw [hs]; decide)
  | broken e =>
    refine ⟨_, time, timed_eq h (Int.natCast_nonneg time), runner.allows_error h time, nofun, ?_⟩
    rintro _ ⟨⟩
    rfl
  | cutOff => exact ⟨_, _, timedOut_eq hb, allows_timedOut hb, nofun, nofun⟩

theorem run_eq_conclude {clock : Clock} {request : RunRequest} {code : Text} {time : Nat}
    (hc : request.code = some code) (hn : Text.isBlankText code = false)
    (ht : clock.taken? = some time) :
    ∃ after, runner.run clock request =
      (runner.conclude time (runner.race request.draw request.language code), after) := by
  have hb : isBlank request.code = false := by rw [hc]; exact hn
  rw [run, if_neg (by rw [hb]; decide), hc]
  dsimp only [Option.getD_some]
  split
  next hr => exact ⟨_, by rw [hr]; rfl⟩
  next =>
    rw [Clock.taken?] at ht
    rw [ht]
    exact ⟨_, rfl⟩

/-! ### The result of a run -/

/-- **Every run has a valid result that keeps to the budget.** The budget must not be negative and
the clock must be able to tell a time; snippet, language, detectors, the greatest argument, latency
and failure are arbitrary. What is said about the result in `Allows` does not mention the snippet in
the case of a timeout, and a complaint about the form of a snippet is only returned in time, and
only where the times can be counted in seconds. -/
theorem run_valid (clock : Clock) (request : RunRequest) (hb : 0 ≤ runner.budget)
    (ht : clock.taken?.isSome = true) :
    ∃ result time after, runner.run clock request = (.valid result, after) ∧
      runner.Allows result time ∧
      ∀ code language diagnostic, request.code = some code → Text.isBlankText code = false →
        Language.parse request.language = .ok language →
        language.diagnose runner.requireMain code = some diagnostic → result.status = .error →
        if runner.overflows request.draw then result.output = RunError.overflow.message
        else result.output = diagnostic.message ∧ (time : Int) ≤ runner.budget := by
  obtain ⟨time, ht⟩ := Option.isSome_iff_exists.mp ht
  by_cases hn : isBlank request.code = true
  · have hm : blankMessage ≠ "" := by decide
    have hr : runner.run clock request =
        (.valid ⟨.error, blankMessage, some 0, fun _ => hm⟩, clock) := by
      rw [run, if_pos hn, timed_eq hm (le_refl 0)]
      rfl
    refine ⟨_, 0, clock, hr, runner.allows_error hm 0, ?_⟩
    intro code _ _ hc hcn
    rw [hc] at hn
    exact absurd hn (by rw [isBlank, Option.all_some, hcn]; decide)
  · rw [Bool.not_eq_true] at hn
    obtain ⟨code, hc⟩ : ∃ code, request.code = some code := by
      cases hcode : request.code with
      | none => rw [hcode] at hn; cases hn
      | some code => exact ⟨code, rfl⟩
    have hcn : Text.isBlankText code = false := by rw [hc] at hn; exact hn
    obtain ⟨after, hr⟩ := runner.run_eq_conclude hc hcn ht
    obtain ⟨result, taken, hv, ha, hd, he⟩ :=
      conclude_valid hb (runner.hasText_race request.draw request.language code) time
    refine ⟨result, taken, after, by rw [hr, hv], ha, ?_⟩
    intro code' language diagnostic hc' _ hl hg hs
    obtain rfl : code = code' := Option.some.inj (hc.symm.trans hc')
    rcases runner.race_cases request.draw hl code with hrace | hrace
    · rw [hrace, conclude, timedOut_eq hb] at hv
      cases hv
      cases hs
    · split
      next ho => exact he .overflow (by rw [hrace, if_pos ho])
      next ho => exact hd diagnostic (by rw [hrace, if_neg ho, attempt, hg]) hs

/-- A clock that goes backwards, a failure that is made up, and a snippet with a fault of form. -/
theorem run_valid_clock_backwards :
    0 ≤ ({ budget := 250, variability := .fixed 3 (some "out of memory") } : Runner).budget ∧
    (Clock.taken? [10.0, 9.5]).isSome = true ∧
    ∃ result time after,
      ({ budget := 250, variability := .fixed 3 (some "out of memory") } : Runner).run [10.0, 9.5]
        ⟨some "for x in y".toList, .str "python", {}⟩ = (.valid result, after) ∧
      ({ budget := 250, variability := .fixed 3 (some "out of memory") } : Runner).Allows
        result time := by
  have hb :
      0 ≤ ({ budget := 250, variability := .fixed 3 (some "out of memory") } : Runner).budget := by
    decide
  have ht : (Clock.taken? [10.0, 9.5]).isSome = true := by decide
  obtain ⟨result, time, after, hr, ha, _⟩ :=
    run_valid _ [10.0, 9.5] ⟨some "for x in y".toList, .str "python", {}⟩ hb ht
  exact ⟨hb, ht, result, time, after, hr, ha⟩

/-! ### Runs that end in time -/

/-- What a result reports of an ending. -/
def Reports (result : RunResult) : Ending → Prop
  | .printed output => result.status = .success ∧ result.output = output
  | .diagnosed diagnostic => result.status = .error ∧ result.output = diagnostic.message
  | .broken e => result.status = .error ∧ result.output = e.message
  | .cutOff => result.status = .timeout

/-- Neither latency nor clock go beyond the budget. -/
structure InBudget (clock : Clock) (draw : Variability.Draw) : Prop where
  budget_pos : 0 < runner.budget
  latency_lt : runner.variability.latency draw < runner.budget
  taken_le : ∃ time : Nat, clock.taken? = some time ∧ (time : Int) ≤ runner.budget

/-- Neither latency nor clock go beyond the budget, and the times can be counted in seconds. -/
structure InTime (clock : Clock) (draw : Variability.Draw) : Prop
    extends runner.InBudget clock draw where
  countable : runner.overflows draw = false

variable {runner} in
theorem race_of_inBudget {clock : Clock} {draw : Variability.Draw} (h : runner.InBudget clock draw)
    {named : Json} {language : Language} (hl : Language.parse named = .ok language) (code : Text) :
    runner.race draw named code =
      if runner.overflows draw then .broken .overflow else runner.attempt draw language code := by
  have hp : ¬ runner.budget ≤ 0 := Int.not_le.mpr h.budget_pos
  have hu : runner.isHeldUp draw = false := by
    have := h.latency_lt
    rw [isHeldUp, Bool.and_eq_false_iff, decide_eq_false_iff_not, decide_eq_false_iff_not]
    omega
  rw [race, overflows, if_neg hp, hl, hu]
  cases Clock.inSeconds runner.budget <;>
    cases Clock.inSeconds (runner.variability.latency draw) <;> rfl

theorem attempt_ne_cutOff (draw : Variability.Draw) (language : Language) (code : Text) :
    runner.attempt draw language code ≠ .cutOff := by
  rw [attempt]
  split
  · simp
  · split
    · simp
    · split <;> simp

variable {runner} in
/-- An ending that is not cut off is reported as it is, if no more than the budget was taken. -/
theorem conclude_reports {ending : Ending} (h : ending.HasText) (hc : ending ≠ .cutOff) {time : Nat}
    (hle : (time : Int) ≤ runner.budget) :
    ∃ result, runner.conclude time ending = .valid result ∧ Reports result ending := by
  have finished : ∀ {status : Status} {output : String} (ho : output ≠ ""),
      runner.finish status output time =
        .valid ⟨status, output, some time, fun _ => ho⟩ := by
    intro status output ho
    rw [finish, if_neg (by omega)]
    exact timed_eq ho (Int.natCast_nonneg time)
  cases ending with
  | printed output => exact ⟨_, finished h, rfl, rfl⟩
  | diagnosed diagnostic => exact ⟨_, finished diagnostic.message_ne, rfl, rfl⟩
  | broken e => exact ⟨_, timed_eq h (Int.natCast_nonneg time), rfl, rfl⟩
  | cutOff => exact absurd rfl hc

variable {runner} {clock : Clock} {request : RunRequest} {language : Language} {code : Text}

/-- **A run within the budget reports what the attempt comes to**, if its times can be counted in
seconds, and otherwise that they cannot. -/
theorem run_reports_of_inBudget (h : runner.InBudget clock request.draw)
    (hc : request.code = some code) (hn : Text.isBlankText code = false)
    (hl : Language.parse request.language = .ok language) :
    ∃ result after, runner.run clock request = (.valid result, after) ∧
      Reports result (if runner.overflows request.draw then .broken .overflow
        else runner.attempt request.draw language code) := by
  obtain ⟨time, ht, hle⟩ := h.taken_le
  obtain ⟨after, hr⟩ := runner.run_eq_conclude hc hn ht
  have htext := runner.hasText_race request.draw request.language code
  rw [race_of_inBudget h hl code] at hr htext
  have hcut : (if runner.overflows request.draw then .broken .overflow
      else runner.attempt request.draw language code) ≠ Ending.cutOff := by
    split
    · exact nofun
    · exact runner.attempt_ne_cutOff request.draw language code
  obtain ⟨result, hv, hrep⟩ := conclude_reports htext hcut hle
  exact ⟨result, after, by rw [hr, hv], hrep⟩

/-- **A run that ends in time reports what the attempt comes to.** -/
theorem run_reports (h : runner.InTime clock request.draw) (hc : request.code = some code)
    (hn : Text.isBlankText code = false) (hl : Language.parse request.language = .ok language) :
    ∃ result after, runner.run clock request = (.valid result, after) ∧
      Reports result (runner.attempt request.draw language code) := by
  have hr := run_reports_of_inBudget h.toInBudget hc hn hl
  rwa [h.countable] at hr

end Runner

end Snippet
