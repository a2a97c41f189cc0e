import Snippet.Settings

/-!
# Made-up latency and failure

Runs can be made slower and less reliable on purpose. A source of variability says, each time it is
asked, how long a run is held up and whether it fails.

What a random source yields depends on a generator that is not described here; a source is followed
as far as its answers do not depend on it: the latency when the bounds agree, the failures when the
rate is zero or at least one. Otherwise a draw, which the caller supplies, decides.
-/

namespace Snippet

/-- A random source: latencies between two bounds, and failures at a rate. -/
structure RandomSource where
  least : Int
  greatest : Int
  rate : Float
  least_le : least ≤ greatest

/-- A source of variability. -/
inductive Variability where
  /-- No latency and no failure. -/
  | none
  /-- Always the same latency and the same failure. -/
  | fixed (latency : Int) (failure : Option String)
  /-- Random latency and failure. -/
  | random (source : RandomSource)

namespace Variability

/-- The bounds of a random source are in the wrong order. -/
structure BoundsError where
  least : Int
  greatest : Int

/-- What is reported about bounds in the wrong order. -/
def BoundsError.message (e : BoundsError) : String :=
  "max_ms (" ++ toString e.greatest ++ ") must not be below min_ms (" ++ toString e.least ++ ")"

/-- The random source with given bounds and rate. -/
def ofBounds (least greatest : Int) (rate : Float) : Except BoundsError Variability :=
  if h : least ≤ greatest then .ok (.random ⟨least, greatest, rate, h⟩)
  else .error ⟨least, greatest⟩

/-- The failure that a random source makes up. -/
def randomFailure : String := "RuntimeError: simulated runtime failure"

/-- What a generator draws: for a latency the distance from the lower bound, which is taken within
the range, and for a failure a number from zero up to, and without, one. -/
structure Draw where
  distance : Nat := 0
  share : Float := 0.0

/-- The latency in milliseconds that a source yields at a draw. -/
def latency (source : Variability) (draw : Draw) : Int :=
  match source with
  | none => 0
  | fixed latency _ => latency
  | random source =>
    source.least + draw.distance % (source.greatest - source.least + 1)

/-- The failure that a source yields at a draw, if any. -/
def failure? (source : Variability) (draw : Draw) : Option String :=
  match source with
  | none => Option.none
  | fixed _ failure => failure
  | random source =>
    if source.rate != 0.0 && draw.share < source.rate then some randomFailure else Option.none

/-- The source that the settings describe: none if there is neither latency nor failure. If the
bounds are in the wrong order, the lower one counts. -/
def ofSettings (settings : Settings) : Variability :=
  if settings.latencyMax = 0 ∧ settings.failureRate == 0.0 then none
  else
    random ⟨settings.latencyMin, max settings.latencyMin settings.latencyMax,
      settings.failureRate, Int.le_max_left ..⟩

end Variability

end Snippet
