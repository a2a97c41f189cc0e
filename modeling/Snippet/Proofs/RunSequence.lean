import Mathlib.Data.List.OfFn
import Mathlib.Logic.Equiv.Basic
import Snippet.Proofs.RunResult

/-!
# Runs one after the other

All that one run leaves to the next is the clock, and how far that has gone on is known beforehand
(`Runner.readings`): a blank snippet does not read it, a run that is cut off reads it once, and any
other run reads it twice.  So each of several runs has the result that it has on its own, with a
clock that starts behind the readings of the runs before it; and with a clock that stands still, the
order of the runs does not matter (`Runner.runAll_separate`).

* `Clock.reading` is what a clock shows after some readings, and `Clock.after` the clock that is
  left then; `Clock.reading_after` says that the two go together.
* `Runner.run_snd`: what is left of the clock after a run.
* `Runner.run_fst_congr`: the result of a run depends on two readings only.
-/

namespace Snippet

open Schema

/-! ### Clocks -/

namespace Clock

variable (clock : Clock)

/-- What a clock shows when it has been read `n` times before. -/
def reading (n : Nat) : Float := clock.getD (min n (clock.length - 1)) 0.0

/-- The clock after `n` readings.  Its script starts behind them, but the last reading stays. -/
def after (n : Nat) : Clock := clock.drop (min n (clock.length - 1))

/-- A clock that always shows the same. -/
def StandsStill : Prop := ∀ n, clock.reading n = clock.reading 0

@[simp] theorem after_zero : clock.after 0 = clock := by simp [after]

theorem after_after (m n : Nat) : (clock.after m).after n = clock.after (m + n) := by
  simp only [after, List.length_drop, List.drop_drop]
  congr 1
  omega

/-- **A clock goes on where it was left.** -/
theorem reading_after (m n : Nat) : (clock.after m).reading n = clock.reading (m + n) := by
  simp only [reading, after, List.getD_eq_getElem?_getD, List.getElem?_drop, List.length_drop]
  congr 2
  omega

theorem next_eq : clock.next = (clock.reading 0, clock.after 1) := by
  match clock with
  | [] => rfl
  | [_] => rfl
  | first :: second :: more => simp [next, reading, after]

end Clock

namespace Runner

variable (runner : Runner)

/-- Whether a run is cut off: the budget is used up from the start, or the snippet is in a known
language and is held up. A time that cannot be counted in seconds ends a run before it is cut off.
-/
def isCutOff (request : RunRequest) : Bool :=
  Clock.inSeconds runner.budget && (runner.budget ≤ 0 ||
    (Language.parse request.language).isOk &&
      Clock.inSeconds (runner.variability.latency request.draw) && runner.isHeldUp request.draw)

/-- How often a run reads the clock. -/
def readings (request : RunRequest) : Nat :=
  if isBlank request.code then 0 else if runner.isCutOff request then 1 else 2

/-- How often several runs read the clock. -/
def readingsOf (requests : List RunRequest) : Nat := (requests.map runner.readings).sum

theorem race_eq_cutOff_iff {request : RunRequest} {code : Text} :
    runner.race request.draw request.language code = .cutOff ↔ runner.isCutOff request = true := by
  rw [race, isCutOff]
  cases Clock.inSeconds runner.budget with
  | false => simp
  | true =>
    by_cases hb : runner.budget ≤ 0
    · simp [hb]
    · cases Language.parse request.language with
      | error e => simp [hb, Except.isOk, Except.toBool]
      | ok language =>
        have hattempt := runner.attempt_ne_cutOff request.draw language code
        cases Clock.inSeconds (runner.variability.latency request.draw) <;>
          cases runner.isHeldUp request.draw <;>
          simp [hb, hattempt, Except.isOk, Except.toBool]

/-! ### One run -/

variable {clock clock' : Clock} {request : RunRequest}

theorem run_of_isBlank (hb : isBlank request.code = true) (clock : Clock) :
    runner.run clock request = (RunResult.timed .error blankMessage 0, clock) := by
  rw [run, if_pos hb]

theorem run_of_isCutOff (hb : isBlank request.code = false) (hc : runner.isCutOff request = true)
    (clock : Clock) : runner.run clock request = (runner.timedOut, clock.after 1) := by
  have hrace := (@race_eq_cutOff_iff runner request (request.code.getD [])).mpr hc
  rw [run, if_neg (by rw [hb]; decide), clock.next_eq]
  dsimp only
  rw [hrace]

theorem run_of_ends (hb : isBlank request.code = false) (hc : runner.isCutOff request = false)
    (clock : Clock) : runner.run clock request =
      (match Clock.elapsed? (clock.reading 0) (clock.reading 1) with
        | some time =>
          runner.conclude time (runner.race request.draw request.language (request.code.getD []))
        | none => (Checked.issue .notFinite).under "executionTime", clock.after 2) := by
  have hrace : runner.race request.draw request.language (request.code.getD []) ≠ .cutOff := by
    rw [Ne, race_eq_cutOff_iff, hc]
    decide
  rw [run, if_neg (by rw [hb]; decide), clock.next_eq]
  dsimp only
  rw [Clock.next_eq, Clock.reading_after, Clock.after_after, Nat.add_zero]
  split
  next he => exact absurd he hrace
  next => cases Clock.elapsed? (clock.reading 0) (clock.reading 1) <;> rfl

/-- **What is left of the clock after a run.** -/
theorem run_snd (clock : Clock) (request : RunRequest) :
    (runner.run clock request).2 = clock.after (runner.readings request) := by
  rw [readings]
  cases hb : isBlank request.code with
  | true => rw [runner.run_of_isBlank hb, if_pos rfl, clock.after_zero]
  | false =>
    cases hc : runner.isCutOff request with
    | true => rw [runner.run_of_isCutOff hb hc, if_neg (by decide), if_pos rfl]
    | false => rw [runner.run_of_ends hb hc, if_neg (by decide), if_neg (by decide)]

/-- **The result of a run depends on two readings only.** -/
theorem run_fst_congr (h : ∀ n, clock.reading n = clock'.reading n) (request : RunRequest) :
    (runner.run clock request).1 = (runner.run clock' request).1 := by
  cases hb : isBlank request.code with
  | true => rw [runner.run_of_isBlank hb, runner.run_of_isBlank hb]
  | false =>
    cases hc : runner.isCutOff request with
    | true => rw [runner.run_of_isCutOff hb hc, runner.run_of_isCutOff hb hc]
    | false => rw [runner.run_of_ends hb hc, runner.run_of_ends hb hc, h 0, h 1]

/-! ### Several runs -/

@[simp] theorem readingsOf_cons (request : RunRequest) (more : List RunRequest) :
    runner.readingsOf (request :: more) = runner.readings request + runner.readingsOf more := by
  rw [readingsOf, List.map_cons, List.sum_cons, ← readingsOf]

theorem runAll_cons (clock : Clock) (request : RunRequest) (more : List RunRequest) :
    runner.runAll clock (request :: more) = (runner.run clock request).1 ::
      runner.runAll (clock.after (runner.readings request)) more := by
  rw [runAll, ← runner.run_snd]

/-- **Each run has the result that it has on its own**, with the clock that the runs before it have
left. -/
theorem getElem?_runAll (clock : Clock) (requests : List RunRequest) (k : Nat) :
    (runner.runAll clock requests)[k]? = requests[k]?.map fun request =>
      (runner.run (clock.after (runner.readingsOf (requests.take k))) request).1 := by
  induction requests generalizing clock k with
  | nil => rfl
  | cons first more ih =>
    rw [runAll_cons]
    cases k with
    | zero => simp [readingsOf]
    | succ k =>
      rw [List.getElem?_cons_succ, List.getElem?_cons_succ, ih, Clock.after_after,
        List.take_succ_cons, readingsOf_cons]

/-- **With a clock that stands still a run does not even notice how many ran before it.** -/
theorem getElem?_runAll_of_standsStill (h : clock.StandsStill) (requests : List RunRequest)
    (k : Nat) :
    (runner.runAll clock requests)[k]? =
      requests[k]?.map fun request => (runner.run clock request).1 := by
  rw [getElem?_runAll]
  congr 1
  funext request
  refine runner.run_fst_congr ?_ request
  intro n
  rw [Clock.reading_after, h, h n]

/-- **No run leaves anything to the next but the clock.**  The `k`-th of several runs has the result
that it has as the only run, with a clock whose script starts behind the readings of the runs before
it; and with a clock that always shows the same, runs in another order have the same results in that
order. -/
theorem runAll_separate (runner : Runner) (clock : Clock) (requests : List RunRequest) :
    (∀ k, (runner.runAll clock requests)[k]? = requests[k]?.map fun request =>
        (runner.run (clock.after (runner.readingsOf (requests.take k))) request).1) ∧
      (clock.StandsStill → ∀ (order : Equiv.Perm (Fin requests.length)) (k : Fin requests.length),
        (runner.runAll clock (List.ofFn fun i => requests.get (order i)))[k.val]? =
          (runner.runAll clock requests)[(order k).val]?) := by
  refine ⟨runner.getElem?_runAll clock requests, ?_⟩
  intro h order k
  have hmoved : (List.ofFn fun i => requests.get (order i))[k.val]? = requests[(order k).val]? := by
    rw [List.getElem?_ofFn, dif_pos k.isLt, List.getElem?_eq_getElem (order k).isLt]
    rfl
  rw [runner.getElem?_runAll_of_standsStill h, runner.getElem?_runAll_of_standsStill h, hmoved]

/-- A snippet, a blank one and a third one that starts behind two readings; and the first two of
them in the other order, with a clock of two readings that are the same. -/
theorem runAll_separate_swapped :
    let runner : Runner := { budget := 250, variability := .fixed 3 none }
    let requests : List RunRequest := [⟨some "x = 1".toList, .str "python", {}⟩,
      ⟨none, .str "c", {}⟩, ⟨some "int x;".toList, .str "java", {}⟩]
    (runner.runAll [1.0, 1.125, 7.0, 7.5] requests)[2]? =
        some (runner.run [7.0, 7.5] ⟨some "int x;".toList, .str "java", {}⟩).1 ∧
      Clock.StandsStill [2.5, 2.5] ∧
      (runner.runAll [2.5, 2.5] (List.ofFn fun i =>
          requests.get (Equiv.swap ⟨0, by decide⟩ ⟨1, by decide⟩ i)))[0]? =
        (runner.runAll [2.5, 2.5] requests)[1]? := by
  intro runner requests
  have hstill : Clock.StandsStill [2.5, 2.5] := by
    intro n
    cases n with
    | zero => rfl
    | succ n => simp [Clock.reading]
  have hread : runner.readingsOf (requests.take 2) = 2 := by decide +kernel
  have hthird := (runAll_separate runner [1.0, 1.125, 7.0, 7.5] requests).1 2
  rw [hread] at hthird
  refine ⟨hthird, hstill, ?_⟩
  exact (runAll_separate runner [2.5, 2.5] requests).2 hstill
    (Equiv.swap ⟨0, by decide⟩ ⟨1, by decide⟩) ⟨0, by decide⟩

end Runner

end Snippet
