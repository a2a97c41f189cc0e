import Mathlib.Tactic.Common
import Snippet.Variability

/-!
# Latency and failure by the settings

The settings name a least and a greatest latency and a rate of failures.  What a source made from
them answers, over any sequence of questions, is said by `Variability.answers_of_settings`:

* A source is always made: the bounds that are handed on are in order, whichever way round the
  settings have them.
* Failures are as the rate says: none at the rate zero, and one at every question at the rate one.
* **Every latency lies between the least one and the greater one of the two bounds, unless the
  least latency alone is set.**  Settings without a greatest latency and without failures make the
  source that never waits, which overlooks the least latency (`not_latency_minimumAlone`).
-/

namespace Snippet

/-- Neither a greatest latency nor a rate of failures is set. The least latency does not count. -/
def Settings.IsSteady (settings : Settings) : Prop :=
  settings.latencyMax = 0 ∧ (settings.failureRate == 0.0) = true

namespace Variability

/-! ### Questions and answers -/

/-- What a source is asked for. -/
inductive Question where
  | latency
  | failure

/-- What a source answers. -/
inductive Answer where
  /-- The milliseconds that a run is held up. -/
  | latency (milliseconds : Int)
  /-- The failure of a run, if it fails. -/
  | failure (message : Option String)

/-- The answer to a question at a draw. -/
def answer (source : Variability) (draw : Draw) : Question → Answer
  | .latency => .latency (source.latency draw)
  | .failure => .failure (source.failure? draw)

/-- The answers to questions, one after the other, each with what a generator draws for it. -/
def answers (source : Variability) (steps : List (Question × Draw)) : List Answer :=
  steps.map fun (question, draw) => source.answer draw question

/-- A generator draws shares from zero up to, and without, one. -/
def Draw.IsFair (draw : Draw) : Prop := 0.0 ≤ draw.share ∧ draw.share < 1.0

variable {source : Variability} {steps : List (Question × Draw)}

theorem exists_of_latency_mem {milliseconds : Int}
    (h : .latency milliseconds ∈ source.answers steps) :
    ∃ draw, milliseconds = source.latency draw := by
  obtain ⟨⟨question, draw⟩, -, ha⟩ := List.mem_map.mp h
  cases question with
  | latency => exact ⟨draw, (Answer.latency.inj ha).symm⟩
  | failure => cases ha

theorem exists_of_failure_mem {message : Option String}
    (h : .failure message ∈ source.answers steps) :
    ∃ step ∈ steps, message = source.failure? step.2 := by
  obtain ⟨⟨question, draw⟩, hs, ha⟩ := List.mem_map.mp h
  cases question with
  | latency => cases ha
  | failure => exact ⟨_, hs, (Answer.failure.inj ha).symm⟩

/-! ### Random sources -/

section

variable (source : RandomSource) (draw : Draw)

/-- **A random latency lies between the bounds of its source.** -/
theorem latency_random_bounds :
    source.least ≤ (random source).latency draw ∧
      (random source).latency draw ≤ source.greatest := by
  have hle := source.least_le
  have hrange : 0 < source.greatest - source.least + 1 := by omega
  have hnonneg := Int.emod_nonneg (draw.distance : Int) (Int.ne_of_gt hrange)
  have hlt := Int.emod_lt_of_pos (draw.distance : Int) hrange
  rw [latency]
  omega

theorem failure?_random_of_zero (h : (source.rate == 0.0) = true) :
    (random source).failure? draw = Option.none := by
  rw [failure?, bne, h]
  rfl

theorem failure?_random_of_one (h : source.rate = 1.0) (hd : draw.IsFair) :
    (random source).failure? draw = some randomFailure := by
  have hrate : ((1.0 : Float) != 0.0) = true := by decide
  rw [failure?, h, hrate, Bool.true_and, if_pos (decide_eq_true hd.2)]

end

/-! ### Sources made from settings -/

variable {settings : Settings}

theorem ofSettings_of_isSteady (h : settings.IsSteady) : ofSettings settings = none := if_pos h

theorem ofSettings_of_not_isSteady (h : ¬ settings.IsSteady) :
    ofSettings settings = random ⟨settings.latencyMin, max settings.latencyMin settings.latencyMax,
      settings.failureRate, Int.le_max_left ..⟩ := if_neg h

/-- The bounds are in order, so the source is not refused. -/
theorem ofBounds_of_not_isSteady (h : ¬ settings.IsSteady) :
    ofBounds settings.latencyMin (max settings.latencyMin settings.latencyMax)
      settings.failureRate = .ok (ofSettings settings) := by
  rw [ofBounds, dif_pos (Int.le_max_left ..), ofSettings_of_not_isSteady h]

theorem latency_ofSettings_bounds (h : ¬ (settings.IsSteady ∧ 0 < settings.latencyMin))
    (draw : Draw) :
    settings.latencyMin ≤ (ofSettings settings).latency draw ∧
      (ofSettings settings).latency draw ≤ max settings.latencyMin settings.latencyMax := by
  by_cases hs : settings.IsSteady
  · have hmin : ¬ 0 < settings.latencyMin := fun hpos => h ⟨hs, hpos⟩
    have hmax := hs.1
    rw [ofSettings_of_isSteady hs, latency]
    omega
  · rw [ofSettings_of_not_isSteady hs]
    exact latency_random_bounds _ draw

theorem failure?_ofSettings_of_zero (h : (settings.failureRate == 0.0) = true) (draw : Draw) :
    (ofSettings settings).failure? draw = Option.none := by
  by_cases hs : settings.IsSteady
  · rw [ofSettings_of_isSteady hs, failure?]
  · rw [ofSettings_of_not_isSteady hs]
    exact failure?_random_of_zero _ draw h

theorem failure?_ofSettings_of_one (h : settings.failureRate = 1.0) {draw : Draw}
    (hd : draw.IsFair) : (ofSettings settings).failure? draw = some randomFailure := by
  have hs : ¬ settings.IsSteady := by
    rintro ⟨-, hz⟩
    rw [h] at hz
    exact absurd hz (by decide)
  rw [ofSettings_of_not_isSteady hs]
  exact failure?_random_of_one _ draw h hd

/-- **What a source made from settings answers.** Whether the settings have passed their checks or
not, the bounds that are handed on are in order, so that a source is made. Its latencies lie between
the two bounds, or the least one if that is the greater, over every sequence of questions exactly if
the settings do not have a least latency alone; with a least latency alone it never waits. At the
rate zero it never fails, and at the rate one it always does. -/
theorem answers_of_settings (settings : Settings) :
    (¬ settings.IsSteady →
        ofBounds settings.latencyMin (max settings.latencyMin settings.latencyMax)
          settings.failureRate = .ok (ofSettings settings)) ∧
      ((∀ steps milliseconds, .latency milliseconds ∈ (ofSettings settings).answers steps →
          settings.latencyMin ≤ milliseconds ∧
            milliseconds ≤ max settings.latencyMin settings.latencyMax) ↔
        ¬ (settings.IsSteady ∧ 0 < settings.latencyMin)) ∧
      (settings.IsSteady → ∀ steps milliseconds,
        .latency milliseconds ∈ (ofSettings settings).answers steps → milliseconds = 0) ∧
      ((settings.failureRate == 0.0) = true → ∀ steps message,
        .failure message ∈ (ofSettings settings).answers steps → message = Option.none) ∧
      (settings.failureRate = 1.0 → ∀ steps message, (∀ step ∈ steps, step.2.IsFair) →
        .failure message ∈ (ofSettings settings).answers steps → message = some randomFailure) := by
  refine ⟨ofBounds_of_not_isSteady, ⟨fun h hs => ?_, fun h steps milliseconds ha => ?_⟩,
    fun hs steps milliseconds ha => ?_, fun hz steps message ha => ?_,
    fun ho steps message hd ha => ?_⟩
  · -- the first question for a latency gives it away
    have hzero : .latency 0 ∈ (ofSettings settings).answers [(.latency, {})] := by
      rw [ofSettings_of_isSteady hs.1]
      exact List.mem_singleton_self _
    have := (h _ _ hzero).1
    omega
  · obtain ⟨draw, rfl⟩ := exists_of_latency_mem ha
    exact latency_ofSettings_bounds h draw
  · obtain ⟨draw, rfl⟩ := exists_of_latency_mem ha
    rw [ofSettings_of_isSteady hs, latency]
  · obtain ⟨step, -, rfl⟩ := exists_of_failure_mem ha
    exact failure?_ofSettings_of_zero hz step.2
  · obtain ⟨step, hm, rfl⟩ := exists_of_failure_mem ha
    exact failure?_ofSettings_of_one ho (hd step hm)

/-- **A least latency alone is overlooked.** The settings pass their checks, and the source that is
made from them never waits. -/
theorem not_latency_minimumAlone :
    let settings : Settings := { latencyMin := 100 }
    Settings.read [("SIMULATED_LATENCY_MIN_MS", "100")] = .valid settings ∧
      .latency 0 ∈ (ofSettings settings).answers [(.latency, {})] ∧
      ¬ (settings.latencyMin ≤ 0 ∧ 0 ≤ max settings.latencyMin settings.latencyMax) := by
  have hs : Settings.IsSteady { latencyMin := 100 } := ⟨rfl, by decide⟩
  refine ⟨rfl, ?_, by decide⟩
  rw [ofSettings_of_isSteady hs]
  exact List.mem_singleton_self _

end Variability

end Snippet
