import Snippet.Bracket
import Snippet.Mask
import Snippet.Text.Line

/-!
# Loops

How many loops a snippet has and how deep they are nested, judged by its mask.

Where blocks are told by indentation, a loop is a line that opens with a loop keyword, and it is
open until a line comes that is not indented further than it. The clauses of comprehensions count
as loops inside the loops that are open on their line.

Where blocks stand in braces, a loop reaches from its header to the end of the statement after it,
and it is nested in every loop whose reach its header starts in. The end of a statement is found by
brackets and semicolons alone, so that it is defined for texts that are no programs, too.
-/

namespace Snippet

open Pattern

/-! ### Loops by indentation -/

/-- The loop keyword that a line opens with. -/
def loopLine : Pattern :=
  optional (lit "async" ++ someBlanks) ++ firstOf [lit "for", lit "while"] ++ edge

/-- The keyword that loop headers share with the clauses of comprehensions. -/
def forWord : Pattern := keyword "for"

/-- What is known after some lines: the indentations of the open loops, innermost first, the
deepest nesting, and the number of loops. -/
structure Indentation where
  /-- The indentations of the loops that are open, the innermost first. -/
  openLoops : List Nat
  /-- The deepest nesting so far. -/
  depth : Nat
  /-- The number of loops so far. -/
  count : Nat

namespace Indentation

/-- Nothing has been read. -/
def start : Indentation := ⟨[], 0, 0⟩

/-- What one more line changes. Blank lines change nothing. -/
def line (state : Indentation) (line : Text) : Indentation :=
  let stripped := Text.trim line
  if stripped.isEmpty then state
  else
    let indent := Text.indent line
    let enclosing := state.openLoops.dropWhile (indent ≤ ·)
    let clauses := (forWord.matchesIn stripped).length
    match loopLine.matchAt? (.start stripped) with
    | none =>
      ⟨enclosing, max state.depth (enclosing.length + clauses), state.count + clauses⟩
    | some head =>
      let inline := if Text.occurs "for".toList head.text then clauses - 1 else clauses
      ⟨indent :: enclosing, max state.depth (enclosing.length + 1 + inline),
        state.count + 1 + inline⟩

/-- What the lines of a mask say about its loops. -/
def ofMask (mask : Text) : Indentation :=
  (Text.lines mask).foldl line start

end Indentation

/-! ### Loops by braces -/

/-- The header of a loop, up to its parenthesis or up to the brace after `do`. -/
def loopHeader : Pattern :=
  firstOf [edge ++ firstOf [lit "for", lit "while"] ++ next '(',
    edge ++ lit "do" ++ blanks ++ before (· == '\x7b')]

/-- Whether a loop header is that of a loop whose condition follows its body. -/
def isDoHeader (header : Match) : Bool :=
  ['d', 'o'].isPrefixOf header.text

/-- The place behind the closer of a bracket that has just been opened in front of `place`. -/
def afterCloser? (bracket : Bracket) (place : Place) : Option Place :=
  (bracket.closing? 1 place.offset place.rest).map fun position =>
    place.advance (position + 1 - place.offset)

/-- The place at the first character that is not blank. -/
def skipBlanks (place : Place) : Place :=
  place.advance (Text.indent place.rest)

/-- The end of a statement that is neither a block nor a loop: behind its semicolon, or behind the
block that opens before any semicolon. -/
def simpleEnd (place : Place) : Nat :=
  let semicolon := Text.position? ';' place.rest
  let brace := Text.position? '\x7b' place.rest
  let blockEnd (distance : Nat) :=
    match afterCloser? .curly (place.advance (distance + 1)) with
    | some stop => stop.offset
    | none => place.textEnd
  match brace, semicolon with
  | some b, none => blockEnd b
  | some b, some s => if b < s then blockEnd b else place.offset + s + 1
  | none, some s => place.offset + s + 1
  | none, none => place.textEnd

theorem width_loopHeader : loopHeader.width = 2 := by decide

theorem length_rest_of_loopHeader {place : Place} {header : Match}
    (h : loopHeader.matchAt? place = some header) :
    header.stop.rest.length + 2 ≤ place.rest.length := by
  have := (reads_of_matchAt? h).2.length_add_le
  rwa [width_loopHeader] at this

theorem length_rest_of_afterCloser? {bracket : Bracket} {place stop : Place}
    (h : afterCloser? bracket place = some stop) : stop.rest.length ≤ place.rest.length := by
  obtain ⟨position, -, rfl⟩ := Option.map_eq_some_iff.mp h
  rw [Place.rest_advance, List.length_drop]
  omega

theorem length_rest_skipBlanks (place : Place) :
    (skipBlanks place).rest.length ≤ place.rest.length := by
  rw [skipBlanks, Place.rest_advance, List.length_drop]
  omega

/-- The end of the statement that starts at a place. A loop ends where its body ends, and what is
never closed reaches to the end of the text. -/
def statementEnd (place : Place) : Nat :=
  let start := skipBlanks place
  match start.rest with
  | [] => place.textEnd
  | c :: _ =>
    if c = '\x7b' then
      match afterCloser? .curly (start.advance 1) with
      | some stop => stop.offset
      | none => place.textEnd
    else
      match _h : loopHeader.matchAt? start with
      | none => simpleEnd start
      | some header =>
        if isDoHeader header then statementEnd header.stop
        else
          match _h' : afterCloser? .round header.stop with
          | some stop => statementEnd stop
          | none => place.textEnd
termination_by place.rest.length
decreasing_by
  · have := length_rest_of_loopHeader _h
    have : start.rest.length ≤ place.rest.length := length_rest_skipBlanks place
    omega
  · have := length_rest_of_loopHeader _h
    have := length_rest_of_afterCloser? _h'
    have : start.rest.length ≤ place.rest.length := length_rest_skipBlanks place
    omega

/-- The end of the loop with a given header. -/
def loopEnd (header : Match) : Nat :=
  if isDoHeader header then statementEnd header.stop
  else
    match afterCloser? .round header.stop with
    | some stop => statementEnd stop
    | none => header.stop.textEnd

/-- The reach of every loop in a mask: where its header starts and where its body ends. -/
def loopSpans (mask : Text) : List (Nat × Nat) :=
  (loopHeader.matchesIn mask).map fun header => (header.start.offset, loopEnd header)

/-- How deep a loop that starts at `start` is nested in loops with the given reaches, itself
counted. -/
def nesting (spans : List (Nat × Nat)) (start : Nat) : Nat :=
  (spans.filter fun (first, last) => first < start && start < last).length + 1

/-! ### Loops of a snippet -/

namespace Language

/-- The deepest nesting of loops in a mask. -/
def loopDepthOfMask (language : Language) (mask : Text) : Nat :=
  if language.usesBraces then
    let spans := loopSpans mask
    (spans.map fun span => nesting spans span.1).foldl max 0
  else (Indentation.ofMask mask).depth

/-- The number of loops in a mask. -/
def loopCountOfMask (language : Language) (mask : Text) : Nat :=
  if language.usesBraces then (loopSpans mask).length else (Indentation.ofMask mask).count

/-- The deepest nesting of loops in a snippet. -/
def loopDepth (language : Language) (code : Text) : Nat :=
  language.loopDepthOfMask (language.mask code)

/-- The number of loops in a snippet. -/
def loopCount (language : Language) (code : Text) : Nat :=
  language.loopCountOfMask (language.mask code)

/-- Whether a snippet has a loop. -/
def hasLoop (language : Language) (code : Text) : Bool :=
  1 ≤ language.loopDepth code

/-- Whether a snippet has a loop within a loop. -/
def hasNestedLoops (language : Language) (code : Text) : Bool :=
  2 ≤ language.loopDepth code

end Language

end Snippet
