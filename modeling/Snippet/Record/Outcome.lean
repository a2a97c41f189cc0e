import Snippet.Record.Basic
import Snippet.Synthesis

/-!
# Outcomes as records

An outcome names a kind of program and what was found, in parameters that may hold anything. Its
output is made up from those parameters that the kind needs; a parameter that is absent or that
cannot be used is an error.
-/

namespace Snippet

open Schema Record

/-- A kind of program, the detector that recognised it, and what it found, by name. -/
structure Outcome where
  case : Case
  detector : String
  params : List (String × Json)

namespace Outcome

/-- Reads an outcome. -/
def read (origin : Origin) : Reader Outcome := fun json =>
  (members origin "DetectorOutcome" json).andThen fun fields =>
    mk <$> required "case" (member Case.tag Case.all) fields <*>
      required "detector" string fields <*> defaulted "params" [] object fields

/-- Writes an outcome. -/
def toJson (outcome : Outcome) : Json :=
  .obj [("case", .str outcome.case.tag), ("detector", .str outcome.detector),
    ("params", .obj outcome.params)]

/-- Why an outcome has no output. -/
inductive Error where
  /-- A parameter is not there. -/
  | missingParameter
  /-- A parameter is of a kind that is no number. -/
  | notNumber
  /-- A parameter is the undefined number. -/
  | undefinedNumber
  /-- A parameter is infinite. -/
  | infiniteNumber
  | synthesis (e : SynthesisError)

/-- What is reported about the error; for some errors that is nothing. -/
def Error.message? : Error → Option String
  | missingParameter | notNumber => none
  | undefinedNumber => some "cannot convert float NaN to integer"
  | infiniteNumber => some "cannot convert float infinity to integer"
  | synthesis e => some e.message

/-- The value of a parameter, if it is there. -/
def param? (outcome : Outcome) (key : String) : Option Json :=
  Json.lookup? key outcome.params

/-- Whether a parameter is there and counts as true. -/
def flag (outcome : Outcome) (key : String) : Bool :=
  (outcome.param? key).any Json.isTruthy

/-- The whole number that a parameter means; what follows a point is cut off. -/
def wholeNumber : Json → Except Error Int
  | .int n => .ok n
  | .bool value => .ok (if value then 1 else 0)
  | .real x =>
    match Dyadic.ofFloat? x with
    | some value => .ok value.truncate
    | none => .error (if x.isNaN then .undefinedNumber else .infiniteNumber)
  | .str s => (Numeral.readInteger s.toList).mapError fun e => .synthesis (.numeral e)
  | .null | .arr _ | .obj _ => .error .notNumber

/-- The output of an outcome. A literal text is handed on as it is, whatever its kind. -/
def output (maximum : Int) (language : Language) (outcome : Outcome) : Except Error Json :=
  let made (finding : Finding) : Except Error Json :=
    ((synthesize maximum language finding).map .str).mapError .synthesis
  match outcome.case with
  | .blockingInput => made (.blockingInput (outcome.flag "arithmetic"))
  | .literalOutput =>
    match (outcome.param? "text").filter Json.isTruthy with
    | some text => .ok text
    | none => made (.literalOutput [])
  | .fibonacci =>
    match outcome.param? "n" with
    | none => .error .missingParameter
    | some parameter => do
      let n ← wholeNumber parameter
      made (.fibonacci n (outcome.flag "wrapped"))
  | .bubbleSort => made .bubbleSort
  | .selectionSort => made .selectionSort
  | .helloWorld => made .helloWorld
  | .iterationOutput => made .iterationOutput
  | .factorial => made .factorial
  | .loop => made .loop
  | .recursion => made .recursion
  | .default => made .default

end Outcome

/-- What a chain of detectors says of a snippet, as an outcome. -/
def Classification.outcome (found : Classification) : Outcome where
  case := found.finding.case
  detector := found.detectorName
  params :=
    match found.finding with
    | .blockingInput arithmetic => [("arithmetic", .bool arithmetic)]
    | .literalOutput text => [("text", .ofText text)]
    | .fibonacci n wrapped => [("n", .int n), ("wrapped", .bool wrapped)]
    | _ => []

end Snippet
