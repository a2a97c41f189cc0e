import Snippet.Loop

/-!
# The search for loops

The end of a statement that opens with the header of a loop is searched for behind the header, by a
call within the call. Calls take frames of a stack, and the stack holds only so many of them: a
search that would need more than are left breaks off.

Here loops are searched for with a given number of frames. Where blocks are told by indentation, no
call is made within another one, so nothing breaks off.
-/

namespace Snippet

open Pattern

/-- Why a search breaks off. -/
inductive StackError where
  /-- It needs more frames than are left. -/
  | tooDeep
  deriving DecidableEq, Repr

namespace StackError

/-- What is reported about the error. -/
def message : StackError → String
  | tooDeep => "maximum recursion depth exceeded in comparison"

end StackError

/-- The most frames that the stack holds. -/
def stackLimit : Nat := 1000

/-- The frames that are left for a search, with what its callers have taken. -/
def searchFrames : Nat := 950

/-- The end of the statement that starts at a place, searched for with so many frames. -/
def statementEndWithin : Nat → Place → Except StackError Nat
  | 0, _ => .error .tooDeep
  | frames + 1, place =>
    let start := skipBlanks place
    match start.rest with
    | [] => .ok place.textEnd
    | c :: _ =>
      if c = '\x7b' then
        match afterCloser? .curly (start.advance 1) with
        | some stop => .ok stop.offset
        | none => .ok place.textEnd
      else
        match loopHeader.matchAt? start with
        | none => .ok (simpleEnd start)
        | some header =>
          if isDoHeader header then statementEndWithin frames header.stop
          else
            match afterCloser? .round header.stop with
            | some stop => statementEndWithin frames stop
            | none => .ok place.textEnd

/-- The end of the loop with a given header. -/
def loopEndWithin (frames : Nat) (header : Match) : Except StackError Nat :=
  if isDoHeader header then statementEndWithin frames header.stop
  else
    match afterCloser? .round header.stop with
    | some stop => statementEndWithin frames stop
    | none => .ok header.stop.textEnd

/-- The reach of every loop in a mask. -/
def loopSpansWithin (frames : Nat) (mask : Text) : Except StackError (List (Nat × Nat)) :=
  (loopHeader.matchesIn mask).mapM fun header =>
    (loopEndWithin frames header).map fun stop => (header.start.offset, stop)

namespace Language

/-- The deepest nesting of loops in a snippet. -/
def loopDepthWithin (language : Language) (frames : Nat) (code : Text) : Except StackError Nat :=
  let mask := language.mask code
  if language.usesBraces then
    (loopSpansWithin frames mask).map fun spans =>
      (spans.map fun span => nesting spans span.1).foldl max 0
  else .ok (Indentation.ofMask mask).depth

/-- The number of loops in a snippet. -/
def loopCountWithin (language : Language) (frames : Nat) (code : Text) : Except StackError Nat :=
  let mask := language.mask code
  if language.usesBraces then (loopSpansWithin frames mask).map List.length
  else .ok (Indentation.ofMask mask).count

/-- Whether a snippet has a loop. -/
def hasLoopWithin (language : Language) (frames : Nat) (code : Text) : Except StackError Bool :=
  (language.loopDepthWithin frames code).map fun depth => 1 ≤ depth

/-- Whether a snippet has a loop within a loop. -/
def hasNestedLoopsWithin (language : Language) (frames : Nat) (code : Text) :
    Except StackError Bool :=
  (language.loopDepthWithin frames code).map fun depth => 2 ≤ depth

end Language

end Snippet
