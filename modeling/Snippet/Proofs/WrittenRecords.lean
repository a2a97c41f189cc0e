import Snippet.Proofs.RecordReading
import Snippet.Record.Kind

/-!
# Written records

What a record is written as is read back as the same record, for every kind of record
(`RunResult.read_toJson` and its like).  So a value that is accepted as a record is written in a
form that is accepted again and written in the same form again (`RecordKind.normalise_again`): with
all the fields of the record and no others, a timing with its classes in order, and a success or an
error with an output.
-/

namespace Snippet

open Schema Checked

/-! ### Reading back a field -/

namespace Schema

/-- A value is known by its tag, if no value in front of it in the list has the same one. -/
theorem tagged_tag {α : Type} {issue : List String → Issue} {tag : α → String} {values : List α}
    {value : α} (h : (values.find? fun v => tag v == tag value) = some value) :
    tagged issue tag values (.str (tag value)) = .valid value := by
  rw [tagged]
  simp only [h]

theorem optional_ofOption {α β : Type} {key : String} {reader : Reader β} {write : α → Json}
    {f : α → β} {fields : List (String × Json)} {value : Option α}
    (hr : ∀ v, reader (write v) = .valid (f v)) (hw : ∀ v, write v ≠ .null)
    (hf : Json.lookup? key fields = some (.ofOption write value)) :
    optional key reader fields = .valid (value.map f) := by
  rw [optional, hf]
  cases value with
  | none => rfl
  | some v =>
    rw [Json.ofOption]
    split
    next he => cases he
    next he => exact absurd (Option.some.inj he) (hw v)
    next he =>
      obtain rfl := Option.some.inj he
      rw [hr]
      rfl

theorem optional_written {α : Type} {key : String} {reader : Reader α} {write : α → Json}
    {fields : List (String × Json)} {value : Option α} (hr : ∀ v, reader (write v) = .valid v)
    (hw : ∀ v, write v ≠ .null) (hf : Json.lookup? key fields = some (.ofOption write value)) :
    optional key reader fields = .valid value := by
  have h := @optional_ofOption α α key reader write id fields value hr hw hf
  rwa [Option.map_id] at h

theorem optional_string {key : String} {fields : List (String × Json)} {value : Option String}
    (hf : Json.lookup? key fields = some (.ofOption .str value)) :
    optional key string fields = .valid value :=
  optional_written (fun _ => rfl) (by simp) hf

theorem integerFrom_ofNat (n : Nat) : integerFrom 0 (.ofNat n) = .valid (n : Int) := by
  have hn : ¬ (n : Int) < 0 := by omega
  rw [integerFrom, Json.ofNat, integer, andThen, if_neg hn]

end Schema

theorem Record.language_tag (language : Language) :
    Record.language (.str language.tag) = .valid language :=
  tagged_tag (by cases language <;> decide)

/-! ### Reading back a record -/

variable (origin : Record.Origin)

/-- **A written result of a run is read back.** -/
theorem RunResult.read_toJson (result : RunResult) :
    RunResult.read origin result.toJson = .valid result := by
  have hstatus : member Status.tag Status.all (.str result.status.tag) = .valid result.status :=
    tagged_tag (by cases result.status <;> decide)
  have htime : optional "executionTime" (integerFrom 0)
      [("status", .str result.status.tag), ("output", .str result.output),
        ("executionTime", .ofOption .ofNat result.time)] = .valid (result.time.map Int.ofNat) :=
    optional_ofOption integerFrom_ofNat (by simp [Json.ofNat]) rfl
  have hbuild : build result.status result.output ((result.time.map Int.ofNat).map (·.toNat)) =
      .valid result := by
    have hsame : (result.time.map Int.ofNat).map (·.toNat) = result.time := by
      cases result.time <;> rfl
    rw [hsame, build, dif_pos result.output_ne]
  refine andThen_eq_valid_iff.mpr ⟨_, Record.members_eq_valid_iff.mpr rfl, ?_⟩
  refine andThen_eq_valid_iff.mpr
    ⟨(result.status, result.output, result.time.map Int.ofNat), ?_, hbuild⟩
  simp [seq_eq_valid_iff, map_eq_valid_iff, required_eq_valid_iff, string_eq_valid_iff,
    Json.lookup?, hstatus, htime]

/-- **A written sample is read back.** -/
theorem CodeSample.read_toJson (sample : CodeSample) :
    CodeSample.read origin sample.toJson = .valid sample := by
  have hsource : sourceReader (.str sample.source) = .valid ⟨sample.source, sample.source_ne⟩ := by
    rw [sourceReader, string, andThen, dif_pos sample.source_ne]
  refine andThen_eq_valid_iff.mpr ⟨_, Record.members_eq_valid_iff.mpr rfl, ?_⟩
  simp [seq_eq_valid_iff, map_eq_valid_iff, required_eq_valid_iff, Json.lookup?,
    Record.language_tag, hsource]

/-- **A written piece of advice is read back.** -/
theorem Advice.read_toJson (advice : Advice) :
    Advice.read origin advice.toJson = .valid advice := by
  have hkind : word AdviceKind.tag AdviceKind.all (.str advice.kind.tag) = .valid advice.kind :=
    tagged_tag (by cases advice.kind <;> decide)
  have hrationale : ∀ fields, Json.lookup? "rationale" fields =
      some (.ofOption .str advice.rationale) →
      optional "rationale" string fields = .valid advice.rationale := fun _ => optional_string
  have himpact : ∀ fields, Json.lookup? "impact" fields = some (.ofOption .str advice.impact) →
      optional "impact" string fields = .valid advice.impact := fun _ => optional_string
  have hcode : ∀ fields, Json.lookup? "code" fields =
      some (.ofOption CodeSample.toJson advice.code) →
      optional "code" (CodeSample.read origin) fields = .valid advice.code :=
    fun _ => optional_written (CodeSample.read_toJson origin) (by simp [CodeSample.toJson])
  refine andThen_eq_valid_iff.mpr ⟨_, Record.members_eq_valid_iff.mpr rfl, ?_⟩
  simp [seq_eq_valid_iff, map_eq_valid_iff, required_eq_valid_iff, string_eq_valid_iff,
    Json.lookup?, hkind, hrationale, himpact, hcode]

/-- **A written outcome is read back.** -/
theorem Outcome.read_toJson (outcome : Outcome) :
    Outcome.read origin outcome.toJson = .valid outcome := by
  have hcase : member Case.tag Case.all (.str outcome.case.tag) = .valid outcome.case :=
    tagged_tag (by cases outcome.case <;> decide)
  refine andThen_eq_valid_iff.mpr ⟨_, Record.members_eq_valid_iff.mpr rfl, ?_⟩
  simp [seq_eq_valid_iff, map_eq_valid_iff, required_eq_valid_iff, defaulted_eq_valid_iff,
    string_eq_valid_iff, Json.lookup?, hcase, object]

theorem Language.parse_tag (language : Language) :
    Language.parse (.str language.tag) = .ok language := by
  rw [Language.parse, Language.ofText?_tag]

/-- **A written request for a snippet is read back**, if the snippet is within the limit. -/
theorem CodeRequest.read_toJson {request : CodeRequest} (h : request.code.length ≤ codeLimit) :
    CodeRequest.read origin request.toJson = .valid request :=
  read_eq_valid_iff.mpr ⟨rfl, h, request.language.tag, rfl, request.language.parse_tag⟩

/-- **A written request for advice is read back**, if the snippet is within the limit. -/
theorem InsightsRequest.read_toJson {request : InsightsRequest}
    (h : request.code.length ≤ CodeRequest.codeLimit) :
    InsightsRequest.read origin request.toJson = .valid request := by
  refine read_eq_valid_iff.mpr ⟨?_, request.profile.toJson, rfl, request.profile.read_toJson origin⟩
  exact CodeRequest.read_eq_valid_iff.mpr
    ⟨rfl, h, request.language.tag, rfl, request.language.parse_tag⟩

/-! ### The written form -/

/-- The keys of an object, in order. -/
def Json.keys : Json → List String
  | obj members => members.map (·.1)
  | _ => []

namespace RecordKind

/-- The fields of a kind of record. -/
def fields : RecordKind → List String
  | timing => ["best", "average", "worst"]
  | growthProfile => ["timeComplexity", "spaceComplexity", "analysis"]
  | runResult => ["status", "output", "executionTime"]
  | codeSample => ["language", "source"]
  | advice => ["type", "title", "description", "rationale", "impact", "code"]
  | outcome => ["case", "detector", "params"]
  | codeRequest => ["code", "language"]
  | insightsRequest => ["code", "language", "profile"]

/-- A value is what some record of a kind is written as. -/
inductive Writes : RecordKind → Json → Prop where
  | timing (record : Timing) : Writes timing record.toJson
  | growthProfile (record : GrowthProfile) : Writes growthProfile record.toJson
  | runResult (record : RunResult) : Writes runResult record.toJson
  | codeSample (record : CodeSample) : Writes codeSample record.toJson
  | advice (record : Advice) : Writes advice record.toJson
  | outcome (record : Outcome) : Writes outcome record.toJson
  | codeRequest (record : CodeRequest) (h : record.code.length ≤ CodeRequest.codeLimit) :
      Writes codeRequest record.toJson
  | insightsRequest (record : InsightsRequest)
      (h : record.code.length ≤ CodeRequest.codeLimit) : Writes insightsRequest record.toJson

variable {kind : RecordKind} {json again : Json}

/-- **What is accepted is written as a record.** -/
theorem writes_of_normalise (h : kind.normalise json = .valid again) : kind.Writes again := by
  cases kind with
  | timing =>
    obtain ⟨record, -, rfl⟩ := map_eq_valid_iff.mp h
    exact .timing record
  | growthProfile =>
    obtain ⟨record, -, rfl⟩ := map_eq_valid_iff.mp h
    exact .growthProfile record
  | runResult =>
    obtain ⟨record, -, rfl⟩ := map_eq_valid_iff.mp h
    exact .runResult record
  | codeSample =>
    obtain ⟨record, -, rfl⟩ := map_eq_valid_iff.mp h
    exact .codeSample record
  | advice =>
    obtain ⟨record, -, rfl⟩ := map_eq_valid_iff.mp h
    exact .advice record
  | outcome =>
    obtain ⟨record, -, rfl⟩ := map_eq_valid_iff.mp h
    exact .outcome record
  | codeRequest =>
    obtain ⟨record, hr, rfl⟩ := map_eq_valid_iff.mp h
    exact .codeRequest record (CodeRequest.read_eq_valid_iff.mp hr).2.1
  | insightsRequest =>
    obtain ⟨record, hr, rfl⟩ := map_eq_valid_iff.mp h
    have hcode := (InsightsRequest.read_eq_valid_iff.mp hr).1
    exact .insightsRequest record (CodeRequest.read_eq_valid_iff.mp hcode).2.1

/-- **What a record is written as is accepted as it is.** -/
theorem normalise_of_writes (h : kind.Writes json) : kind.normalise json = .valid json := by
  cases h with
  | timing record => exact map_eq_valid_iff.mpr ⟨record, record.read_toJson _, rfl⟩
  | growthProfile record => exact map_eq_valid_iff.mpr ⟨record, record.read_toJson _, rfl⟩
  | runResult record => exact map_eq_valid_iff.mpr ⟨record, record.read_toJson _, rfl⟩
  | codeSample record => exact map_eq_valid_iff.mpr ⟨record, record.read_toJson _, rfl⟩
  | advice record => exact map_eq_valid_iff.mpr ⟨record, record.read_toJson _, rfl⟩
  | outcome record => exact map_eq_valid_iff.mpr ⟨record, record.read_toJson _, rfl⟩
  | codeRequest record hl => exact map_eq_valid_iff.mpr ⟨record, CodeRequest.read_toJson _ hl, rfl⟩
  | insightsRequest record hl =>
    exact map_eq_valid_iff.mpr ⟨record, InsightsRequest.read_toJson _ hl, rfl⟩

theorem keys_of_writes (h : kind.Writes json) : json.keys = kind.fields := by
  cases h <;> rfl

/-- **Checking a record twice is checking it once.**  What is accepted as a record of some kind is
written in a form that is accepted and written in the same form again, with all the fields of the
kind and no others.  The classes of an accepted timing are in order, and an accepted success or
error has an output. -/
theorem normalise_again (h : kind.normalise json = .valid again) :
    kind.normalise again = .valid again ∧ again.keys = kind.fields ∧
      (kind = timing → ∃ best average worst : Growth, best ≤ average ∧ average ≤ worst ∧
        again = .obj [("best", .str best.label), ("average", .str average.label),
          ("worst", .str worst.label)]) ∧
      (kind = runResult → ∀ status ∈ [Status.success, Status.error],
        again.get? "status" = some (.str status.tag) →
        ∃ output, again.get? "output" = some (.str output) ∧ output ≠ "") := by
  have hw := writes_of_normalise h
  refine ⟨normalise_of_writes hw, keys_of_writes hw, ?_, ?_⟩
  · rintro rfl
    cases hw with
    | timing record =>
      exact ⟨record.best, record.average, record.worst, record.best_le, record.average_le, rfl⟩
  · rintro rfl status hs hj
    cases hw with
    | runResult record =>
      have htag : record.status.tag = status.tag := Json.str.inj (Option.some.inj hj)
      have hneeds : record.status.needsOutput = true := by
        revert hs htag
        cases record.status <;> cases status <;> decide
      exact ⟨record.output, rfl, record.output_ne hneeds⟩

/-- An error whose time is given as a numeral with a sign, a leading zero and a point, in an object
with an unknown field. -/
theorem normalise_again_lenient :
    let json : Json := .obj [("extra", .null), ("status", .str "error"), ("output", .str "x"),
      ("executionTime", .str " +05.0 ")]
    let again : Json := .obj [("status", .str "error"), ("output", .str "x"),
      ("executionTime", .int 5)]
    runResult.normalise json = .valid again ∧ runResult.normalise again = .valid again ∧
      Status.error ∈ [Status.success, Status.error] ∧
      again.get? "status" = some (.str Status.error.tag) ∧
      ∃ output, again.get? "output" = some (.str output) ∧ output ≠ "" := by
  intro json again
  have h : runResult.normalise json = .valid again := rfl
  obtain ⟨hagain, -, -, houtput⟩ := normalise_again h
  exact ⟨h, hagain, by decide, rfl, houtput rfl .error (by decide) rfl⟩

example : codeRequest.normalise (.obj [("language", .str " JS ")]) =
    .valid (.obj [("code", .str ""), ("language", .str "javascript")]) := rfl

end RecordKind

end Snippet
