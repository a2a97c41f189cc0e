import Snippet.Record.Outcome
import Snippet.Record.Request

/-!
# Kinds of record

All the records that can be checked on their own, by the names under which they are known outside.
-/

namespace Snippet

open Schema

/-- The kinds of record. -/
inductive RecordKind where
  | timing
  | growthProfile
  | runResult
  | codeSample
  | advice
  | outcome
  | codeRequest
  | insightsRequest
  deriving DecidableEq, Repr

namespace RecordKind

/-- The kinds of record. -/
def all : List RecordKind :=
  [timing, growthProfile, runResult, codeSample, advice, outcome, codeRequest, insightsRequest]

/-- The name under which a kind of record is known outside. -/
def name : RecordKind → String
  | timing => "TimeComplexity"
  | growthProfile => "ComplexityProfile"
  | runResult => "ExecutionResult"
  | codeSample => "CodeSample"
  | advice => "Insight"
  | outcome => "DetectorOutcome"
  | codeRequest => "CodeRequest"
  | insightsRequest => "InsightsRequest"

/-- Reads a record of a kind and writes it again, with defaults filled in and without unknown
fields. -/
def normalise (kind : RecordKind) : Reader Json := fun json =>
  match kind with
  | timing => (Timing.read .data json).map (·.toJson)
  | growthProfile => (GrowthProfile.read .data json).map (·.toJson)
  | runResult => (RunResult.read .data json).map (·.toJson)
  | codeSample => (CodeSample.read .data json).map (·.toJson)
  | advice => (Advice.read .data json).map (·.toJson)
  | outcome => (Outcome.read .data json).map (·.toJson)
  | codeRequest => (CodeRequest.read .data json).map (·.toJson)
  | insightsRequest => (InsightsRequest.read .data json).map (·.toJson)

end RecordKind

end Snippet
