import Snippet.Record.Basic
import Snippet.Record.Request
import Snippet.Run

/-!
# The playground

The three things that can be done with a snippet: run it, tell its growth, and give advice. None of
them fails. What cannot be analysed, because its language is not known or because the search for its
loops breaks off, is said to have constant growth and gets the advice that fits every snippet.
-/

namespace Snippet

open Schema

namespace Playground

/-- A clock that stands still. -/
def frozenClock : Clock := []

/-- Runs a snippet. -/
def execute (runner : Runner) (code : Text) (language : Json) : Checked RunResult :=
  (runner.run frozenClock ⟨some code, language, {}⟩).1

/-- The growth of a snippet. -/
def analyze (code : Text) (language : Json) (frames : Nat := searchFrames) : GrowthProfile :=
  match Language.parse language with
  | .error _ => .constant
  | .ok language =>
    match growthProfileWithin frames GrowthRule.standard language code with
    | .error _ => .constant
    | .ok profile => profile

/-- The advice about a snippet with a given profile. -/
def insights (code : Text) (language : Json) (profile : GrowthProfile)
    (frames : Nat := searchFrames) : List Advice :=
  match Language.parse language with
  | .error _ => Advice.generic
  | .ok language =>
    match adviseWithin frames language code profile.time.worst with
    | .error _ => Advice.generic
    | .ok list => list

end Playground

end Snippet
