import Snippet.Proofs.JsonRoundTrip
import Snippet.Proofs.RecordReading
import Snippet.Proofs.RunResult
import Snippet.Service

/-!
# The routes agree

Three routes take a snippet: one runs it, one tells its growth, and one does both and gives advice.
They refuse the same bodies with the same response, and where they accept a body, the third one
answers what the others answer (`snippetRoutes_agree`).

The advice is compared with the answer of the fourth route to a request with the same snippet and
with the growth as it was answered (`Asks`).  The growth goes through JSON on its way back, which
loses nothing (`bodyOf_text`, `GrowthProfile.read_toJson`).
-/

namespace Snippet

namespace Service

open Schema

/-- The response to a body that is posted to a route, under the standard settings. -/
def post (route : Route) (body : Option Text) : Response :=
  respond {} ⟨"POST", route.path, body⟩

/-- The routes that take a snippet and nothing else. -/
def snippetRoutes : List Route := [.execute, .analyze, .run]

/-- A body asks for advice on a snippet, with a given profile. -/
def Asks (body : Option Text) (code language : String) (profile : Json) : Prop :=
  ∃ json, bodyOf body = .ok json ∧ CodeRequest.codeOf json = .str code ∧
    json.get? "language" = some (.str language) ∧ json.get? "profile" = some profile

/-! ### Bodies -/

theorem Route.ofPath?_path (route : Route) :
    ofPath? (route.path.toList.takeWhile (· != '?')) = some route := by
  cases route <;> decide

theorem post_eq_respond {route : Route} (h : route.method = "POST") (body : Option Text) :
    post route body = route.respond {} body := by
  rw [post, respond]
  simp only [Route.ofPath?_path, h, beq_self_eq_true, if_true]

theorem status_of_bodyOf_error {body : Option Text} {refusal : Response}
    (h : bodyOf body = .error refusal) : refusal.status ∈ [400, 422] := by
  rw [bodyOf.eq_def] at h
  split at h
  · cases h; decide
  · cases h; decide
  · split at h
    all_goals first | (cases h; decide) | cases h

/-- **A written value is the value in a body.** -/
theorem bodyOf_text {json : Json} (h : json.Textual) : bodyOf (some json.text) = .ok json := by
  obtain ⟨c, more, ht, hc⟩ := h.exists_text
  have hread := Json.read_text h
  have hmark : (c :: more).head? ≠ some '\uFEFF' := by
    rcases hc with rfl | rfl <;> simp
  rw [ht] at hread ⊢
  rw [bodyOf, if_neg hmark, hread]
  · cases h <;> rfl
  · simp

theorem textual_profile (profile : GrowthProfile) : profile.toJson.Textual := by
  have htime : profile.time.toJson.Textual := by
    refine .obj (by simp) ?_
    simp [Json.Textual.str]
  refine .obj (by simp) ?_
  simp [Json.Textual.str, htime]

theorem asks_text (code language : String) {profile : Json} (h : profile.Textual) :
    Asks (some (Json.obj [("code", .str code), ("language", .str language),
      ("profile", profile)]).text) code language profile := by
  refine ⟨_, bodyOf_text (.obj (by simp) ?_), rfl, rfl, rfl⟩
  simp [h, Json.Textual.str]

/-! ### Accepted bodies -/

theorem exists_execute_eq_valid {runner : Runner} (hb : 0 ≤ runner.budget) (code : Text)
    (language : Json) : ∃ result, Playground.execute runner code language = .valid result := by
  by_cases hn : Text.isBlankText code = true
  · have hblank : Runner.isBlank (some code) = true := hn
    have hm : Runner.blankMessage ≠ "" := by decide
    exact ⟨_, by rw [Playground.execute, Runner.run, if_pos hblank, Runner.timed_eq hm le_rfl]⟩
  · rw [Bool.not_eq_true] at hn
    obtain ⟨time, ht⟩ : ∃ time, Playground.frozenClock.taken? = some time :=
      Option.isSome_iff_exists.mp (by decide)
    obtain ⟨after, hr⟩ :=
      @Runner.run_eq_conclude runner _ ⟨some code, language, {}⟩ code time rfl hn ht
    obtain ⟨result, taken, hv, -⟩ :=
      Runner.conclude_valid hb (runner.hasText_race {} language code) time
    exact ⟨result, by rw [Playground.execute, hr, hv]⟩

theorem get?_status_toJson (result : RunResult) :
    result.toJson.get? "status" = some (.str result.status.tag) := rfl

theorem tag_eq_success_iff {status : Status} : status.tag = "success" ↔ status = .success := by
  cases status <;> decide

variable {body : Option Text} {request : CodeRequest}

theorem withRecord_of_error {α : Type} {refusal : Response} (h : bodyOf body = .error refusal)
    (reader : Reader α) (answer : α → Response) : withRecord reader body answer = refusal := by
  rw [withRecord, h]

theorem withRecord_of_faulty {α : Type} {reader : Reader α} {json : Json} {faults : List Fault}
    (h : bodyOf body = .ok json) (hr : (reader json).under "body" = .faulty faults)
    (answer : α → Response) : withRecord reader body answer = rejection faults := by
  rw [withRecord, h]
  simp only [hr]

theorem withRecord_of_valid {α : Type} {reader : Reader α} {json : Json} {record : α}
    (h : bodyOf body = .ok json) (hr : reader json = .valid record) (answer : α → Response) :
    withRecord reader body answer = answer record := by
  rw [withRecord, h]
  simp only [hr, Checked.under]

theorem post_snippetRoute {route : Route} (h : route ∈ snippetRoutes) (body : Option Text) :
    ∃ answer, post route body = withRecord (CodeRequest.read .request) body answer := by
  have hm : route.method = "POST" := by
    revert route
    decide
  rw [post_eq_respond hm]
  cases route with
  | root | health | insights => exact absurd h (by decide)
  | execute | analyze | run => exact ⟨_, rfl⟩

theorem respond_insights_of_asks {code name : String} {language : Language}
    {profile : GrowthProfile}
    (hcode : code.length ≤ CodeRequest.codeLimit)
    (hname : Language.parse (.str name) = .ok language) (h : Asks body code name profile.toJson) :
    post .insights body =
      ⟨200, .obj [("insights", adviceJson (insightsAnswer ⟨code, language, profile⟩))]⟩ := by
  obtain ⟨json, hbody, hc, hl, hp⟩ := h
  have hread : InsightsRequest.read .request json = .valid ⟨code, language, profile⟩ :=
    InsightsRequest.read_eq_valid_iff.mpr
      ⟨CodeRequest.read_eq_valid_iff.mpr ⟨hc, hcode, name, hl, hname⟩, _, hp, profile.read_toJson _⟩
  rw [post_eq_respond rfl, Route.respond, withRecord_of_valid hbody hread]
  rfl

/-! ### Agreement -/

/-- A body with the snippet `code` in the language `name` is answered by a result of running it, by
its growth, and by both with the advice that a body gets which asks for it.  Without success there
is only the result. -/
structure Agreement (body : Option Text) (code name : String) (execution complexity advice : Json) :
    Prop where
  execute_eq : post .execute body = ⟨200, execution⟩
  analyze_eq : post .analyze body = ⟨200, complexity⟩
  insights_eq : ∀ sent, Asks sent code name complexity →
    post .insights sent = ⟨200, .obj [("insights", advice)]⟩
  run_of_success : execution.get? "status" = some (.str "success") →
    post .run body = ⟨200, .obj [("execution", execution), ("complexity", complexity),
      ("insights", advice)]⟩
  run_of_failure : execution.get? "status" ≠ some (.str "success") →
    post .run body = ⟨200, .obj [("execution", execution), ("complexity", .null),
      ("insights", .null)]⟩

theorem agreement_of_accepted {json : Json} {name : String} (hbody : bodyOf body = .ok json)
    (hread : CodeRequest.read .request json = .valid request)
    (hlimit : request.code.length ≤ CodeRequest.codeLimit)
    (hname : Language.parse (.str name) = .ok request.language) :
    ∃ execution, Agreement body request.code name execution (analyzeAnswer request).toJson
      (adviceJson (insightsAnswer ⟨request.code, request.language, analyzeAnswer request⟩)) := by
  obtain ⟨result, hexecute⟩ : ∃ result, executeAnswer {} request = .valid result :=
    exists_execute_eq_valid (by decide) request.code.toList (nameOf request.language)
  have hstatus :
      result.toJson.get? "status" = some (.str "success") ↔ result.status = .success := by
    rw [get?_status_toJson, Option.some_inj, Json.str.injEq, tag_eq_success_iff]
  refine ⟨result.toJson, ?_, ?_, ?_, ?_, ?_⟩
  · rw [post_eq_respond rfl, Route.respond, withRecord_of_valid hbody hread, hexecute]
    rfl
  · rw [post_eq_respond rfl, Route.respond, withRecord_of_valid hbody hread]
    rfl
  · intro sent hsent
    exact respond_insights_of_asks hlimit hname hsent
  · intro hs
    rw [post_eq_respond rfl, Route.respond, withRecord_of_valid hbody hread, runAnswer, hexecute,
      Checked.map, if_pos (hstatus.mp hs)]
    rfl
  · intro hs
    rw [post_eq_respond rfl, Route.respond, withRecord_of_valid hbody hread, runAnswer, hexecute,
      Checked.map, if_neg (mt hstatus.mpr hs)]
    rfl

/-- **The routes that take a snippet agree.**  Either all of them refuse a body with the same
response, or they are in agreement about the snippet in it; and the growth that is answered can be
sent back. -/
theorem snippetRoutes_agree (body : Option Text) :
    (∃ refusal : Response, refusal.status ∈ [400, 422] ∧
        ∀ route ∈ snippetRoutes, post route body = refusal) ∨
      ∃ json code name execution complexity advice,
        bodyOf body = .ok json ∧ CodeRequest.codeOf json = .str code ∧
        json.get? "language" = some (.str name) ∧
        Agreement body code name execution complexity advice ∧
        Asks (some (Json.obj [("code", .str code), ("language", .str name),
          ("profile", complexity)]).text) code name complexity := by
  cases hbody : bodyOf body with
  | error refusal =>
    refine Or.inl ⟨refusal, status_of_bodyOf_error hbody, ?_⟩
    intro route hr
    obtain ⟨answer, ha⟩ := post_snippetRoute hr body
    rw [ha, withRecord_of_error hbody]
  | ok json =>
    cases hunder : (CodeRequest.read .request json).under "body" with
    | faulty faults =>
      refine Or.inl ⟨rejection faults, List.mem_cons_of_mem _ List.mem_cons_self, ?_⟩
      intro route hr
      obtain ⟨answer, ha⟩ := post_snippetRoute hr body
      rw [ha, withRecord_of_faulty hbody hunder]
    | valid request =>
      have hread := Checked.under_eq_valid_iff.mp hunder
      obtain ⟨hcode, hlimit, name, hname, hlanguage⟩ := CodeRequest.read_eq_valid_iff.mp hread
      obtain ⟨execution, hagree⟩ := agreement_of_accepted hbody hread hlimit hlanguage
      exact Or.inr ⟨json, request.code, name, execution, _, _, rfl, hcode, hname, hagree,
        asks_text _ _ (textual_profile _)⟩

end Service

end Snippet
