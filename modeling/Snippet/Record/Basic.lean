import Snippet.Advice
import Snippet.RunResult

/-!
# Records

How the results of an analysis are read from JSON and written as JSON. Unknown fields are dropped,
absent ones take their defaults, and an absent optional value is written as `null`.
-/

namespace Snippet

open Schema

namespace Record

/-- Where a record is built from, which decides how a value that is no object is complained of. -/
inductive Origin where
  /-- The data of the record itself. -/
  | data
  /-- The body of a request. -/
  | request
  deriving DecidableEq

/-- The members of the object that a record of a given name is built from. -/
def members (origin : Origin) (name : String) : Reader (List (String × Json))
  | .obj members => .valid members
  | _ => .issue (match origin with | .data => .notRecord name | .request => .noFields)

/-- A class of growth, by its label. -/
def growth : Reader Growth := member Growth.label Growth.all

/-- A language, by its exact tag. -/
def language : Reader Language := member Language.tag Language.all

end Record

open Record

/-! ### Classes of growth -/

namespace Growth

/-- A value that is the label of no class. -/
structure UnknownLabel where
  /-- The value that was given. -/
  given : Json

/-- What is reported about a value that is the label of no class. -/
def UnknownLabel.message (e : UnknownLabel) : String :=
  String.ofList e.given.shown ++ " is not a valid ComplexityClass"

/-- The class that a value names. Only a string can name one. -/
def parse (value : Json) : Except UnknownLabel Growth :=
  match value with
  | .str label =>
    match ofLabel? label with
    | some growth => .ok growth
    | none => .error ⟨value⟩
  | _ => .error ⟨value⟩

end Growth

/-! ### Timing -/

namespace Timing

/-- The timing of three classes, if they are in order. -/
def ofClasses (best average worst : Growth) : Checked Timing :=
  if h : best ≤ average ∧ average ≤ worst then .valid ⟨best, average, worst, h.1, h.2⟩
  else .issue (.violates ("expected best <= average <= worst, got " ++ best.label ++ ", " ++
    average.label ++ ", " ++ worst.label))

/-- Reads a timing. -/
def read (origin : Origin) : Reader Timing := fun json =>
  (members origin "TimeComplexity" json).andThen fun fields =>
    (Prod.mk <$> required "best" growth fields <*>
      (Prod.mk <$> required "average" growth fields <*> required "worst" growth fields)).andThen
      fun (best, average, worst) => ofClasses best average worst

/-- Writes a timing. -/
def toJson (timing : Timing) : Json :=
  .obj [("best", .str timing.best.label), ("average", .str timing.average.label),
    ("worst", .str timing.worst.label)]

end Timing

/-! ### Growth profiles -/

namespace GrowthProfile

/-- Reads a profile. -/
def read (origin : Origin) : Reader GrowthProfile := fun json =>
  (members origin "ComplexityProfile" json).andThen fun fields =>
    mk <$> required "timeComplexity" (Timing.read origin) fields <*>
      required "spaceComplexity" growth fields <*> required "analysis" string fields

/-- Writes a profile. -/
def toJson (profile : GrowthProfile) : Json :=
  .obj [("timeComplexity", profile.time.toJson), ("spaceComplexity", .str profile.space.label),
    ("analysis", .str profile.analysis)]

end GrowthProfile

/-! ### Results of runs -/

namespace RunResult

/-- Reads a result. -/
def read (origin : Origin) : Reader RunResult := fun json =>
  (members origin "ExecutionResult" json).andThen fun fields =>
    (Prod.mk <$> required "status" (member Status.tag Status.all) fields <*>
      (Prod.mk <$> required "output" string fields <*>
        optional "executionTime" (integerFrom 0) fields)).andThen
      fun (status, output, time) => build status output (time.map (·.toNat))

/-- Writes a result. -/
def toJson (result : RunResult) : Json :=
  .obj [("status", .str result.status.tag), ("output", .str result.output),
    ("executionTime", .ofOption .ofNat result.time)]

end RunResult

/-! ### Code samples -/

namespace CodeSample

/-- The source of a sample, which is not empty. -/
def sourceReader : Reader { source : String // source ≠ "" } := fun json =>
  (string json).andThen fun source =>
    if h : source ≠ "" then .valid ⟨source, h⟩ else .issue (.tooShort 1)

/-- Reads a sample. -/
def read (origin : Origin) : Reader CodeSample := fun json =>
  (members origin "CodeSample" json).andThen fun fields =>
    (fun language source => ⟨language, source.1, source.2⟩) <$>
      required "language" Record.language fields <*> required "source" sourceReader fields

/-- Writes a sample. -/
def toJson (sample : CodeSample) : Json :=
  .obj [("language", .str sample.language.tag), ("source", .str sample.source)]

end CodeSample

/-! ### Advice -/

namespace Advice

/-- Reads a piece of advice. -/
def read (origin : Origin) : Reader Advice := fun json =>
  (members origin "Insight" json).andThen fun fields =>
    mk <$> required "type" (word AdviceKind.tag AdviceKind.all) fields <*>
      required "title" string fields <*> required "description" string fields <*>
      optional "rationale" string fields <*> optional "impact" string fields <*>
      optional "code" (CodeSample.read origin) fields

/-- Writes a piece of advice. -/
def toJson (advice : Advice) : Json :=
  .obj [("type", .str advice.kind.tag), ("title", .str advice.title),
    ("description", .str advice.description), ("rationale", .ofOption .str advice.rationale),
    ("impact", .ofOption .str advice.impact), ("code", .ofOption CodeSample.toJson advice.code)]

end Advice

end Snippet
