import Snippet.Diagnostic
import Snippet.RunResult
import Snippet.Variability

/-!
# Runs within a time budget

A snippet is run by checking its form, recognising what kind of program it is, and making up what
such a program prints, all within a time budget. Whatever goes wrong becomes a result of the run.

A run that is held up for at least as long as its budget is cut off, and a budget that is not
positive cuts every run off at once. Budget and latency are counted in seconds, in floating point,
and a whole number of milliseconds that is too large for that breaks the run off. The clock is a
script of readings: it is read when a snippet
that is not blank starts, and again when it ends by itself. Readings whose difference is not finite
leave a run without a time, and so without a result.
-/

namespace Snippet

open Schema

/-! ### Clocks -/

/-- The readings of a clock in seconds, the next one first. The last reading repeats for ever, and a
clock without readings stands at zero. -/
abbrev Clock := List Float

namespace Clock

/-- The next reading, and the clock after it. -/
def next : Clock → Float × Clock
  | [] => (0.0, [])
  | [reading] => (reading, [reading])
  | reading :: more => (reading, more)

/-- The milliseconds from one reading to another, to the nearest whole number and at least zero; a
half goes to the even neighbour. There are none if the difference is not finite. -/
def elapsed? (start stop : Float) : Option Nat :=
  (Dyadic.ofFloat? ((stop - start) * 1000.0)).map (·.round.toNat)

/-- From here on a number of milliseconds is too large to be counted in seconds: a thousandth of it
rounds to more than the greatest float. -/
@[irreducible]
def secondsLimit : Nat := 1000 * (Nat.pow 2 1024 - Nat.pow 2 970)

/-- Whether a number of milliseconds can be counted in seconds. -/
def inSeconds (milliseconds : Int) : Bool := milliseconds.natAbs < secondsLimit

end Clock

/-! ### One attempt -/

/-- How runs are carried out. -/
structure Runner where
  /-- Whether an entry point is asked for. -/
  requireMain : Bool := false
  /-- The detectors that tell what a snippet is. -/
  chain : List Detector := Detector.standard
  /-- The greatest Fibonacci argument. -/
  maximum : Int := Synthesis.defaultMaximum
  /-- The time budget in milliseconds. -/
  budget : Int := 5000
  /-- What holds runs up and makes them fail. -/
  variability : Variability := .none
  /-- The frames that are left for the search for loops. -/
  frames : Nat := searchFrames

/-- A snippet that is to be run. -/
structure RunRequest where
  /-- The snippet, if there is one. -/
  code : Option Text
  /-- What is said to be its language. -/
  language : Json
  /-- What a generator draws for this run. -/
  draw : Variability.Draw := {}

/-- Why a run breaks off. -/
inductive RunError where
  | unsupported (e : Language.Unsupported)
  /-- A failure was made up. -/
  | injected (message : String)
  /-- The budget or the latency cannot be counted in seconds. -/
  | overflow
  /-- The search for loops broke off. -/
  | stack (e : StackError)
  | synthesis (e : SynthesisError)

/-- The wording of the reason. -/
def RunError.message : RunError → String
  | unsupported e => e.message
  | injected message => message
  | overflow => "integer division result too large for a float"
  | stack e => e.message
  | synthesis e => e.message

/-- What an attempt comes to. -/
inductive Ending where
  /-- The snippet ran and printed something. -/
  | printed (output : String)
  /-- The form of the snippet was complained of. -/
  | diagnosed (diagnostic : Diagnostic)
  /-- The attempt broke off. -/
  | broken (e : RunError)
  /-- The budget was used up before the attempt ended. -/
  | cutOff

namespace Runner

/-- The output of a snippet whose form is in order. -/
def print (runner : Runner) (language : Language) (code : Text) : Except RunError String :=
  match classifyWithin runner.frames runner.chain language code with
  | .error (.stack e) => .error (.stack e)
  | .error (.numeral e) => .error (.synthesis (.numeral e))
  | .ok found => (synthesize runner.maximum language found.finding).mapError .synthesis

/-- Whether a made-up failure breaks a run; an empty message is none. -/
def failure? (runner : Runner) (draw : Variability.Draw) : Option String :=
  (runner.variability.failure? draw).filter (· != "")

/-- What a snippet in a known language comes to, time apart. -/
def attempt (runner : Runner) (draw : Variability.Draw) (language : Language) (code : Text) :
    Ending :=
  match language.diagnose runner.requireMain code with
  | some diagnostic => .diagnosed diagnostic
  | none =>
    match runner.failure? draw with
    | some message => .broken (.injected message)
    | none =>
      match runner.print language code with
      | .ok output => .printed output
      | .error e => .broken e

/-- Whether a run is held up past its budget. -/
def isHeldUp (runner : Runner) (draw : Variability.Draw) : Bool :=
  let latency := runner.variability.latency draw
  0 < latency && runner.budget ≤ latency

/-- What a snippet comes to within the budget. -/
def race (runner : Runner) (draw : Variability.Draw) (language : Json) (code : Text) : Ending :=
  if !Clock.inSeconds runner.budget then .broken .overflow
  else if runner.budget ≤ 0 then .cutOff
  else
    match Language.parse language with
    | .error e => .broken (.unsupported e)
    | .ok language =>
      if !Clock.inSeconds (runner.variability.latency draw) then .broken .overflow
      else if runner.isHeldUp draw then .cutOff
      else runner.attempt draw language code

/-! ### Results -/

/-- What is reported of a snippet without code. -/
def blankMessage : String := "error: no code to execute"

/-- What is reported of a run that took too long. -/
def timeoutMessage (budget : Int) : String :=
  "Execution timed out after " ++ toString budget ++ " ms. " ++
    "Check for infinite loops or reduce the input size."

/-- The result of a run that took too long; all of the budget counts as used. -/
def timedOut (runner : Runner) : Checked RunResult :=
  RunResult.timed .timeout (timeoutMessage runner.budget) runner.budget

/-- The result of a run that ended by itself after `time` milliseconds. What is printed or diagnosed
too late is dropped. -/
def finish (runner : Runner) (status : Status) (output : String) (time : Nat) :
    Checked RunResult :=
  if runner.budget < time then runner.timedOut else RunResult.timed status output time

/-- The result of an ending after `time` milliseconds. -/
def conclude (runner : Runner) (time : Nat) : Ending → Checked RunResult
  | .printed output => runner.finish .success output time
  | .diagnosed diagnostic => runner.finish .error diagnostic.message time
  | .broken e => RunResult.timed .error e.message time
  | .cutOff => runner.timedOut

/-- Whether there is nothing to run. -/
def isBlank (code : Option Text) : Bool :=
  code.all Text.isBlankText

/-- Runs a snippet; the clock goes on. -/
def run (runner : Runner) (clock : Clock) (request : RunRequest) : Checked RunResult × Clock :=
  if isBlank request.code then (RunResult.timed .error blankMessage 0, clock)
  else
    let (start, clock) := clock.next
    match runner.race request.draw request.language (request.code.getD []) with
    | .cutOff => (runner.timedOut, clock)
    | ending =>
      let (stop, clock) := clock.next
      match Clock.elapsed? start stop with
      | some time => (runner.conclude time ending, clock)
      | none => ((Checked.issue .notFinite).under "executionTime", clock)

/-- Runs snippets one after the other. -/
def runAll (runner : Runner) : Clock → List RunRequest → List (Checked RunResult)
  | _, [] => []
  | clock, request :: more =>
    let (result, clock) := runner.run clock request
    result :: runAll runner clock more

end Runner

end Snippet
