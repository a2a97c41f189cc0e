import Snippet.Bracket
import Snippet.Mask

/-!
# Print calls

The places where a snippet prints, and what it prints there. A call is found in the mask, and its
arguments are cut out of the snippet itself, trimmed, without empty ones. A call whose parenthesis
is never closed is left out.
-/

namespace Snippet

open Pattern

/-- One statement that prints. -/
structure PrintCall where
  /-- What the statement prints with. -/
  routine : Routine
  /-- The texts of its arguments, trimmed and not empty. -/
  arguments : List Text
  /-- Whether it ends the line after them. -/
  endsLine : Bool
  deriving DecidableEq

namespace PrintCall

/-- The call of a printing routine by its name, which is no part of a longer one. -/
def callPattern (routine : Routine) : Pattern :=
  notAfter (fun c => isWord c || c == '.') ++ lit routine.name ++ next '('

/-- The trimmed texts of some ranges of a snippet, without empty ones. -/
def pieces (code : Text) (ranges : List (Nat × Nat)) : List Text :=
  (ranges.map fun (first, last) => Text.trim (Text.slice code first last)).filter (!·.isEmpty)

/-- The calls of one routine, each with the position at which it starts. -/
def ofRoutine (code mask : Text) (routine : Routine) : List (Nat × PrintCall) :=
  ((callPattern routine).matchesIn mask).filterMap fun found =>
    let inside := found.stop.offset
    (Bracket.round.closing? 1 inside found.stop.rest).map fun close =>
      let arguments := pieces code (Bracket.partsWithin mask inside close [','])
      (found.start.offset, ⟨routine, arguments, routine.endsLine⟩)

/-- The start of an insertion into the standard output stream. -/
def streamPattern : Pattern :=
  optional (edge ++ lit "std::") ++ edge ++ lit "cout" ++ blanks ++ lit "<<"

/-- What ends the line when it is inserted. -/
def lineEnders : List String :=
  ["endl", "std::endl", "\"\\n\"", "'\\n'", "\"\\n'", "'\\n\""]

/-- Whether an inserted piece ends the line. -/
def isLineEnder (piece : Text) : Bool :=
  lineEnders.contains (String.ofList piece)

/-- The insertions into the standard output stream, each with the position at which it starts. Such
a statement reaches to the next semicolon. -/
def ofStream (code mask : Text) : List (Nat × PrintCall) :=
  (streamPattern.matchesIn mask).map fun found =>
    let first := found.stop.offset
    let stop := match Text.position? ';' found.stop.rest with
      | some distance => first + distance
      | none => mask.length
    let segments := pieces code (Bracket.partsWithin mask first stop ['<', '<'])
    (found.start.offset,
      ⟨.stream, segments.filter (!isLineEnder ·), segments.any isLineEnder⟩)

end PrintCall

namespace Language

/-- The statements of a snippet that print, each with its position, by routine. -/
def printCallsByRoutine (language : Language) (code : Text) : List (Nat × PrintCall) :=
  let mask := language.mask code
  language.routines.flatMap (PrintCall.ofRoutine code mask) ++
    (if language = cpp then PrintCall.ofStream code mask else [])

/-- The statements of a snippet that print, in the order of the snippet. -/
def printCalls (language : Language) (code : Text) : List PrintCall :=
  ((language.printCallsByRoutine code).mergeSort fun a b => a.1 ≤ b.1).map (·.2)

/-- Whether a snippet has a mark of printing. -/
def hasPrint (language : Language) (code : Text) : Bool :=
  language.printMark.occursIn (language.mask code)

end Language

end Snippet
