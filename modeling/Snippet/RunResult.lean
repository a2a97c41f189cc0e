import Snippet.Schema.Reader

/-!
# Results of runs

What a pretended run ends with: a status, an output and the time it took. A success and an error
always have an output, and no run takes negative time.
-/

namespace Snippet

/-- How a run stands. A run that has ended is not `running`. -/
inductive Status where
  | success
  | error
  | running
  | timeout
  deriving DecidableEq, Repr

namespace Status

/-- The statuses, in the order in which they are listed. -/
def all : List Status := [success, error, running, timeout]

/-- The tag of a status. -/
def tag : Status → String
  | success => "success"
  | error => "error"
  | running => "running"
  | timeout => "timeout"

/-- Whether there has to be an output. -/
def needsOutput : Status → Bool
  | success | error => true
  | running | timeout => false

end Status

/-- The result of a run. -/
structure RunResult where
  status : Status
  output : String
  /-- The time in milliseconds, if it is known. -/
  time : Option Nat
  output_ne : status.needsOutput = true → output ≠ ""
  deriving DecidableEq

namespace RunResult

open Schema

/-- The result with a status, an output and a time, if there is an output where one is needed. -/
def build (status : Status) (output : String) (time : Option Nat) : Checked RunResult :=
  if h : status.needsOutput = true → output ≠ "" then .valid ⟨status, output, time, h⟩
  else .issue (.violates (status.tag ++ " result requires non-empty output"))

/-- The result of a run that took `time` milliseconds, a number that must not be negative. -/
def timed (status : Status) (output : String) (time : Int) : Checked RunResult :=
  if time < 0 then (Checked.issue (.below 0)).under "executionTime"
  else build status output (some time.toNat)

end RunResult

end Snippet
