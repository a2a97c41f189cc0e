import Snippet.Schema.Reader
import Snippet.Synthesis

/-!
# Settings

The settings are read from named texts, as an environment holds them. The letter case of a name does
not matter; names that are no setting are passed over.
-/

namespace Snippet

open Schema

/-- How much is logged. -/
inductive LogLevel where
  | debug
  | info
  | warning
  | error
  deriving DecidableEq, Repr

namespace LogLevel

/-- The levels, in the order in which they are listed. -/
def all : List LogLevel := [debug, info, warning, error]

/-- The name of a level. -/
def tag : LogLevel → String
  | debug => "DEBUG"
  | info => "INFO"
  | warning => "WARNING"
  | error => "ERROR"

end LogLevel

/-- The settings of the service. -/
structure Settings where
  host : String := "0.0.0.0"
  /-- The number of the socket that the service listens at. -/
  listenAt : Int := 8000
  debug : Bool := false
  logLevel : LogLevel := .info
  /-- The allowed origins, separated by commas. -/
  allowedOrigins : String := "http://localhost:3000,http://localhost:5173"
  /-- The time budget of a run in milliseconds. -/
  timeout : Int := 5000
  /-- The least latency that is made up, in milliseconds. -/
  latencyMin : Int := 0
  /-- The greatest latency that is made up, in milliseconds. -/
  latencyMax : Int := 0
  /-- The share of runs that are made to fail. -/
  failureRate : Float := 0.0
  randomSeed : Option Int := none
  /-- Whether an entry point is asked for. -/
  requireMain : Bool := false
  /-- The greatest Fibonacci argument. -/
  maxFibonacciArgument : Int := Synthesis.defaultMaximum

namespace Settings

/-- A number from zero to one. An undefined number passes, since it is on no side of a bound. -/
def rate (text : Text) : Checked Float :=
  (numberOfText text).andThen fun x =>
    if x > 1.0 then .issue (.above 1) else if x < 0.0 then .issue (.below 0) else .valid x

/-- The text under a name, in any letter case; the last one counts. -/
def lookup? (name : String) (environment : List (String × String)) : Option Text :=
  let folded (s : String) := s.toList.map Char.toLower
  (environment.reverse.find? fun entry => folded entry.1 == folded name).map (·.2.toList)

/-- A setting with a default. -/
def setting {α : Type} (environment : List (String × String)) (name : String) (default : α)
    (reader : Text → Checked α) : Checked α :=
  match lookup? name environment with
  | none => .valid default
  | some text => (reader text).under name

/-- A whole number that meets a condition. -/
def integerWith (reader : Reader Int) (text : Text) : Checked Int :=
  reader (.str (String.ofList text))

/-- The settings that an environment describes. -/
def read (environment : List (String × String)) : Checked Settings :=
  let setting {α : Type} (name : String) (default : α) (reader : Text → Checked α) :=
    setting environment name default reader
  let defaults : Settings := {}
  mk <$>
    setting "HOST" defaults.host (fun text => .valid (String.ofList text)) <*>
    setting "PORT" defaults.listenAt integerOfText <*>
    setting "DEBUG" defaults.debug booleanOfText <*>
    setting "LOG_LEVEL" defaults.logLevel
      (fun text => word LogLevel.tag LogLevel.all (.str (String.ofList text))) <*>
    setting "ALLOWED_ORIGINS" defaults.allowedOrigins (fun text => .valid (String.ofList text)) <*>
    setting "EXECUTION_TIMEOUT_MS" defaults.timeout (integerWith (integerAbove 0)) <*>
    setting "SIMULATED_LATENCY_MIN_MS" defaults.latencyMin (integerWith (integerFrom 0)) <*>
    setting "SIMULATED_LATENCY_MAX_MS" defaults.latencyMax (integerWith (integerFrom 0)) <*>
    setting "FAILURE_RATE" defaults.failureRate rate <*>
    setting "RANDOM_SEED" defaults.randomSeed (fun text => (integerOfText text).map some) <*>
    setting "REQUIRE_MAIN" defaults.requireMain booleanOfText <*>
    setting "MAX_FIBONACCI_ARGUMENT" defaults.maxFibonacciArgument
      (integerWith (integerFrom 1))

/-- Writes the settings. -/
def toJson (settings : Settings) : Json :=
  .obj [("HOST", .str settings.host), ("PORT", .int settings.listenAt),
    ("DEBUG", .bool settings.debug), ("LOG_LEVEL", .str settings.logLevel.tag),
    ("ALLOWED_ORIGINS", .str settings.allowedOrigins),
    ("EXECUTION_TIMEOUT_MS", .int settings.timeout),
    ("SIMULATED_LATENCY_MIN_MS", .int settings.latencyMin),
    ("SIMULATED_LATENCY_MAX_MS", .int settings.latencyMax),
    ("FAILURE_RATE", .real settings.failureRate),
    ("RANDOM_SEED", .ofOption .int settings.randomSeed),
    ("REQUIRE_MAIN", .bool settings.requireMain),
    ("MAX_FIBONACCI_ARGUMENT", .int settings.maxFibonacciArgument)]

/-- The origins that a list separated by commas allows: its pieces, trimmed, without empty ones. A
piece that is a star allows all, and then the star stands alone. -/
def originsOf (text : Text) : List Text :=
  let origins := ((Text.splitOn ',' text).map Text.trim).filter (!·.isEmpty)
  if origins.contains ['*'] then [['*']] else origins

/-- The allowed origins. -/
def origins (settings : Settings) : List Text := originsOf settings.allowedOrigins.toList

end Settings

end Snippet
