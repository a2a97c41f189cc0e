import Snippet.Json.Reader
import Snippet.Playground

/-!
# The service

The playground as a web service with four routes that take a request in JSON and two that only
answer. A request that cannot be read or does not fit its record is answered by a list of faults,
each with its path in the request.
-/

namespace Snippet

open Schema

namespace Service

/-- A request: its method, its path with what may follow a question mark, and its body. -/
structure Request where
  method : String
  target : String
  body : Option Text

/-- A response: its status code and its body. -/
structure Response where
  status : Nat
  body : Json

/-- The routes. -/
inductive Route where
  | root
  | health
  | execute
  | analyze
  | insights
  | run
  deriving DecidableEq, Repr

namespace Route

/-- All routes. -/
def all : List Route := [root, health, execute, analyze, insights, run]

/-- The path of a route. -/
def path : Route → String
  | root => "/"
  | health => "/health"
  | execute => "/execute"
  | analyze => "/analyze"
  | insights => "/insights"
  | run => "/run"

/-- The one method that a route takes. -/
def method : Route → String
  | root | health => "GET"
  | execute | analyze | insights | run => "POST"

end Route

/-- The version of the service. -/
def version : String := "1.0.0"

/-- What the root route answers. -/
def overview : Json :=
  .obj [("message", .str "Code Playground API"), ("version", .str version),
    ("languages", .arr (Language.all.map fun language => .str language.tag)),
    ("endpoints", .obj
      [("/execute", .str "POST - Simulate running a snippet"),
        ("/analyze", .str "POST - Time and space complexity"),
        ("/insights", .str "POST - Improvement insights for a snippet and its profile"),
        ("/run", .str "POST - Execute, then analyze and generate insights on success"),
        ("/health", .str "GET - Health check")])]

/-- What the health route answers, apart from the time of day. -/
def healthReport : Json :=
  .obj [("status", .str "healthy"), ("version", .str version)]

/-- A response that only says what went wrong. -/
def failure (status : Nat) (detail : String) : Response :=
  ⟨status, .obj [("detail", .str detail)]⟩

/-- The response to a request with faults. -/
def rejection (faults : List Fault) : Response :=
  ⟨422, .obj [("detail", .arr (faults.map Fault.toJson))]⟩

/-- The response with a checked body; what a route makes itself has no faults under valid
settings. -/
def success (body : Checked Json) : Response :=
  match body with
  | .valid json => ⟨200, json⟩
  | .faulty _ => failure 500 "Internal Server Error"

/-- The JSON value in the body of a request. A byte order mark in front of it is passed over. An
empty body and `null` are none. -/
def bodyOf (body : Option Text) : Except Response Json :=
  let missing := rejection [⟨["body"], .missing⟩]
  match body with
  | none | some [] => .error missing
  | some text =>
    match Json.read (if text.head? = some '\uFEFF' then text.drop 1 else text) with
    | .ok .null => .error missing
    | .ok json => .ok json
    | .error .malformed => .error (rejection [⟨["body"], .notJson⟩])
    | .error .tooManyDigits => .error (failure 400 "There was an error parsing the body")

/-- The response to a request whose body has to be a record. -/
def withRecord {α : Type} (reader : Reader α) (body : Option Text) (answer : α → Response) :
    Response :=
  match bodyOf body with
  | .error response => response
  | .ok json =>
    match (reader json).under "body" with
    | .valid record => answer record
    | .faulty faults => rejection faults

/-- The language of a request, as a value that names it. -/
def nameOf (language : Language) : Json := .str language.tag

/-- The answer to a request to run a snippet. -/
def executeAnswer (runner : Runner) (request : CodeRequest) : Checked RunResult :=
  Playground.execute runner request.code.toList (nameOf request.language)

/-- The answer to a request to tell the growth of a snippet. -/
def analyzeAnswer (request : CodeRequest) : GrowthProfile :=
  Playground.analyze request.code.toList (nameOf request.language)

/-- The answer to a request for advice. -/
def insightsAnswer (request : InsightsRequest) : List Advice :=
  Playground.insights request.code.toList (nameOf request.language) request.profile

/-- Pieces of advice as JSON. -/
def adviceJson (advice : List Advice) : Json := .arr (advice.map Advice.toJson)

/-- The answer to a request to run a snippet and, if that succeeds, to analyse it. -/
def runAnswer (runner : Runner) (request : CodeRequest) : Checked Json :=
  (executeAnswer runner request).map fun result =>
    if result.status = .success then
      let profile := analyzeAnswer request
      let advice := insightsAnswer ⟨request.code, request.language, profile⟩
      .obj [("execution", result.toJson), ("complexity", profile.toJson),
        ("insights", adviceJson advice)]
    else
      .obj [("execution", result.toJson), ("complexity", .null), ("insights", .null)]

/-- The response of a route. -/
def Route.respond (runner : Runner) (body : Option Text) : Route → Response
  | root => ⟨200, overview⟩
  | health => ⟨200, healthReport⟩
  | execute => withRecord (CodeRequest.read .request) body fun request =>
      success ((executeAnswer runner request).map RunResult.toJson)
  | analyze => withRecord (CodeRequest.read .request) body fun request =>
      success (.valid (analyzeAnswer request).toJson)
  | insights => withRecord (InsightsRequest.read .request) body fun request =>
      success (.valid (.obj [("insights", adviceJson (insightsAnswer request))]))
  | run => withRecord (CodeRequest.read .request) body fun request =>
      success (runAnswer runner request)

/-- The route of a path. -/
def Route.ofPath? (path : Text) : Option Route :=
  all.find? (·.path.toList == path)

/-- The response that sends a client on to another path. It has no body. -/
def redirection : Response := ⟨307, .null⟩

/-- The response to a request. A path with needless slashes at its end is sent on to the path
without them, whatever the method. -/
def respond (runner : Runner) (request : Request) : Response :=
  let path := request.target.toList.takeWhile (· != '?')
  match Route.ofPath? path with
  | none =>
    if (Route.ofPath? (Text.dropEndWhile (· == '/') path)).isSome then redirection
    else failure 404 "Not Found"
  | some route =>
    if route.method == request.method then route.respond runner request.body
    else failure 405 "Method Not Allowed"

end Service

end Snippet
