import Mathlib.Tactic
import Snippet.Record.Request

/-!
# What the readers of records accept

A profile that is written as JSON is read back (`GrowthProfile.read_toJson`).  A request for a
snippet is accepted exactly if its code is a string within the limit, or absent, and its language is
a string that names one (`CodeRequest.read_eq_valid_iff`); a request for advice has to have a
readable profile besides (`InsightsRequest.read_eq_valid_iff`).
-/

namespace Snippet

open Schema

variable {α β : Type}

/-! ### Valid values -/

namespace Schema

namespace Checked

theorem map_eq_valid_iff {f : α → β} {x : Checked α} {b : β} :
    f <$> x = .valid b ↔ ∃ a, x = .valid a ∧ f a = b := by
  cases x with
  | valid a =>
    show Checked.valid (f a) = .valid b ↔ _
    simp
  | faulty faults =>
    show Checked.faulty faults = .valid b ↔ _
    simp

theorem seq_eq_valid_iff {f : Checked (α → β)} {x : Checked α} {b : β} :
    f <*> x = .valid b ↔ ∃ g a, f = .valid g ∧ x = .valid a ∧ g a = b := by
  show Checked.apply f x = .valid b ↔ _
  cases f <;> cases x <;> simp [apply]

theorem andThen_eq_valid_iff {x : Checked α} {check : α → Checked β} {b : β} :
    x.andThen check = .valid b ↔ ∃ a, x = .valid a ∧ check a = .valid b := by
  cases x <;> simp [andThen]

theorem under_eq_valid_iff {key : String} {x : Checked α} {a : α} :
    x.under key = .valid a ↔ x = .valid a := by
  cases x <;> simp [under]

theorem issue_ne_valid {issue : Issue} {a : α} : Checked.issue issue ≠ .valid a := by
  rw [Checked.issue]
  simp

end Checked

open Checked

variable {key : String} {reader : Reader α} {fields : List (String × Json)} {a : α}

theorem required_eq_valid_iff : required key reader fields = .valid a ↔
    ∃ json, Json.lookup? key fields = some json ∧ reader json = .valid a := by
  rw [required]
  cases Json.lookup? key fields with
  | none => simp [under_eq_valid_iff, issue_ne_valid]
  | some json => simp [under_eq_valid_iff]

theorem defaulted_eq_valid_iff {default : α} : defaulted key default reader fields = .valid a ↔
    (Json.lookup? key fields = none ∧ default = a) ∨
      ∃ json, Json.lookup? key fields = some json ∧ reader json = .valid a := by
  rw [defaulted]
  cases Json.lookup? key fields with
  | none => simp
  | some json => simp [under_eq_valid_iff]

theorem string_eq_valid_iff {json : Json} {s : String} :
    string json = .valid s ↔ json = .str s := by
  cases json <;> simp [string, issue_ne_valid]

theorem stringUpTo_eq_valid_iff {most : Nat} {json : Json} {s : String} :
    stringUpTo most json = .valid s ↔ json = .str s ∧ s.length ≤ most := by
  rw [stringUpTo, andThen_eq_valid_iff]
  constructor
  · rintro ⟨found, hs, hl⟩
    rw [string_eq_valid_iff] at hs
    split at hl
    · exact absurd hl issue_ne_valid
    next hle =>
      cases hl
      exact ⟨hs, by omega⟩
  · rintro ⟨rfl, hl⟩
    exact ⟨s, rfl, if_neg (by omega)⟩

end Schema

open Checked

namespace Record

theorem members_eq_valid_iff {origin : Origin} {name : String} {json : Json}
    {fields : List (String × Json)} :
    members origin name json = .valid fields ↔ json = .obj fields := by
  cases json <;> simp [members, issue_ne_valid]

theorem growth_label (growth : Growth) : Record.growth (.str growth.label) = .valid growth := by
  cases growth <;> rfl

end Record

/-! ### Profiles -/

namespace Timing

theorem ofClasses_eq (timing : Timing) :
    ofClasses timing.best timing.average timing.worst = .valid timing := by
  rw [ofClasses, dif_pos ⟨timing.best_le, timing.average_le⟩]

theorem read_toJson (origin : Record.Origin) (timing : Timing) :
    Timing.read origin timing.toJson = .valid timing := by
  have hbest := Record.growth_label timing.best
  have haverage := Record.growth_label timing.average
  have hworst := Record.growth_label timing.worst
  refine andThen_eq_valid_iff.mpr ⟨_, Record.members_eq_valid_iff.mpr rfl, ?_⟩
  refine andThen_eq_valid_iff.mpr ⟨(timing.best, timing.average, timing.worst), ?_,
    timing.ofClasses_eq⟩
  simp [seq_eq_valid_iff, map_eq_valid_iff, required_eq_valid_iff, Json.lookup?, hbest, haverage,
    hworst]

end Timing

namespace GrowthProfile

/-- **A written profile is read back.** -/
theorem read_toJson (origin : Record.Origin) (profile : GrowthProfile) :
    GrowthProfile.read origin profile.toJson = .valid profile := by
  refine andThen_eq_valid_iff.mpr ⟨_, Record.members_eq_valid_iff.mpr rfl, ?_⟩
  simp [seq_eq_valid_iff, map_eq_valid_iff, required_eq_valid_iff, Json.lookup?,
    Timing.read_toJson, Record.growth_label, string_eq_valid_iff]

end GrowthProfile

/-! ### Requests -/

namespace CodeRequest

variable {origin : Record.Origin} {json : Json}

/-- The snippet that a request is about, an absent one being empty. -/
def codeOf (json : Json) : Json := (json.get? "code").getD (.str "")

theorem defaulted_code_eq_valid_iff {fields : List (String × Json)} {code : String} :
    defaulted "code" "" (stringUpTo codeLimit) fields = .valid code ↔
      codeOf (.obj fields) = .str code ∧ code.length ≤ codeLimit := by
  rw [defaulted_eq_valid_iff, codeOf, Json.get?]
  cases Json.lookup? "code" fields with
  | none =>
    simp only [true_and, reduceCtorEq, false_and, exists_false, or_false, Option.getD_none,
      Json.str.injEq]
    constructor
    · rintro rfl
      exact ⟨rfl, by decide⟩
    · exact fun h => h.1
  | some value => simp [stringUpTo_eq_valid_iff]

theorem languageReader_eq_valid_iff {language : Language} :
    languageReader json = .valid language ↔
      ∃ name, json = .str name ∧ Language.parse (.str name) = .ok language := by
  cases json with
  | str name =>
    rw [languageReader]
    cases hp : Language.parse (.str name) <;> simp [issue_ne_valid, hp]
  | _ => simp [languageReader, Record.language, member, tagged, issue_ne_valid]

/-- **The requests for a snippet that are accepted.** -/
theorem read_eq_valid_iff {request : CodeRequest} :
    CodeRequest.read origin json = .valid request ↔
      codeOf json = .str request.code ∧ request.code.length ≤ codeLimit ∧
        ∃ name, json.get? "language" = some (.str name) ∧
          Language.parse (.str name) = .ok request.language := by
  obtain ⟨code, language⟩ := request
  simp only [CodeRequest.read, andThen_eq_valid_iff, Record.members_eq_valid_iff, seq_eq_valid_iff,
    map_eq_valid_iff, required_eq_valid_iff, languageReader_eq_valid_iff,
    defaulted_code_eq_valid_iff]
  constructor
  · rintro ⟨fields, rfl, _, _, ⟨_, ⟨hc, hl⟩, rfl⟩, ⟨_, hv, name, rfl, hn⟩, he⟩
    cases he
    exact ⟨hc, hl, name, hv, hn⟩
  · rintro ⟨hc, hl, name, hv, hn⟩
    cases json with
    | obj fields => exact ⟨fields, rfl, _, _, ⟨_, ⟨hc, hl⟩, rfl⟩, ⟨_, hv, name, rfl, hn⟩, rfl⟩
    | _ => cases hv

end CodeRequest

namespace InsightsRequest

/-- **The requests for advice that are accepted.** -/
theorem read_eq_valid_iff {origin : Record.Origin} {json : Json} {request : InsightsRequest} :
    InsightsRequest.read origin json = .valid request ↔
      CodeRequest.read origin json = .valid ⟨request.code, request.language⟩ ∧
        ∃ profile, json.get? "profile" = some profile ∧
          GrowthProfile.read origin profile = .valid request.profile := by
  obtain ⟨code, language, profile⟩ := request
  simp only [InsightsRequest.read, CodeRequest.read, andThen_eq_valid_iff,
    Record.members_eq_valid_iff, seq_eq_valid_iff, map_eq_valid_iff, required_eq_valid_iff]
  constructor
  · rintro ⟨fields, rfl, _, _, ⟨_, _, ⟨_, hc, rfl⟩, hl, rfl⟩, ⟨found, hv, hp⟩, he⟩
    cases he
    exact ⟨⟨fields, rfl, _, _, ⟨_, hc, rfl⟩, hl, rfl⟩, found, hv, hp⟩
  · rintro ⟨⟨fields, rfl, _, _, ⟨_, hc, rfl⟩, hl, he⟩, found, hv, hp⟩
    cases he
    exact ⟨fields, rfl, _, _, ⟨_, _, ⟨_, hc, rfl⟩, hl, rfl⟩, ⟨found, hv, hp⟩, rfl⟩

end InsightsRequest

end Snippet
