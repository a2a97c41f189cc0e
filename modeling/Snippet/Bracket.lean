import Snippet.Text.Basic

/-!
# Brackets

Two questions about a text with brackets: where the bracket at a position is closed, and where the
text falls into parts at a separator that stands outside of all brackets.

A bracket is closed where as many brackets of its own kind have been closed as were opened, whatever
the other kinds do. The separators are found by the depth of nesting in all three kinds together,
without regard to which closer answers which opener.

A position may be negative. It then counts from the end of the text, and reading on from it passes
through position -1 to position 0, the start of the text.
-/

namespace Snippet

/-- A kind of brackets. -/
inductive Bracket where
  | round
  | curly
  | square
  deriving DecidableEq, Repr

/-- Why a position cannot be worked on. -/
inductive LookupError where
  /-- There is no character at the position. -/
  | outOfRange
  /-- The character at the position opens no bracket. -/
  | notAnOpener
  deriving DecidableEq, Repr

namespace Bracket

/-- The character that opens a bracket. -/
def opener : Bracket → Char
  | round => '('
  | curly => '\x7b'
  | square => '['

/-- The character that closes a bracket. -/
def closer : Bracket → Char
  | round => ')'
  | curly => '\x7d'
  | square => ']'

/-- The three kinds. -/
def all : List Bracket := [round, curly, square]

/-- The kind of bracket that a character opens. -/
def ofOpener? (c : Char) : Option Bracket :=
  all.find? (·.opener == c)

/-- Whether a character opens a bracket of any kind. -/
def isOpener (c : Char) : Bool := all.any (·.opener == c)

/-- Whether a character closes a bracket of any kind. -/
def isCloser (c : Char) : Bool := all.any (·.closer == c)

/-- The position at which the last of `depth` open brackets is closed, in a text that starts at
position `here`. -/
def closing? (bracket : Bracket) (depth here : Nat) : Text → Option Nat
  | [] => none
  | c :: rest =>
    if c = bracket.opener then closing? bracket (depth + 1) (here + 1) rest
    else if c = bracket.closer then
      if depth ≤ 1 then some here else closing? bracket (depth - 1) (here + 1) rest
    else closing? bracket depth (here + 1) rest

/-- The position that closes the bracket opened at `position`, if the text closes it. -/
def partner? (text : Text) (position : Int) : Except LookupError (Option Int) :=
  let start := if position < 0 then text.length + position else position
  if start < 0 then .error .outOfRange
  else
    match text.drop start.toNat with
    | [] => .error .outOfRange
    | c :: rest =>
      match ofOpener? c with
      | none => .error .notAnOpener
      | some bracket =>
        let reading := c :: rest ++ (if position < 0 then text else [])
        .ok ((bracket.closing? 0 0 reading).map (position + ·))

/-! ### Parts between separators -/

/-- The parts of a range of `length` characters from position `here` on, where `suffixes` says what
can be read from each of its positions. The current part began at `begun`, `depth` brackets are
open, and the next `skip` characters belong to a separator. -/
def partsFrom (separator : Text) (length : Nat) (depth : Int) (begun here skip : Nat) :
    List Text → Option (List (Nat × Nat))
  | [] => if length ≤ here then some [(begun, length)] else none
  | suffix :: more =>
    if length ≤ here then some [(begun, length)]
    else
      match skip, suffix.head? with
      | skip + 1, _ => partsFrom separator length depth begun (here + 1) skip more
      | 0, none => none
      | 0, some c =>
        if isOpener c then partsFrom separator length (depth + 1) begun (here + 1) 0 more
        else if isCloser c then partsFrom separator length (depth - 1) begun (here + 1) 0 more
        else if depth = 0 ∧ separator.isPrefixOf suffix ∧ separator ≠ [] then
          let next := here + separator.length
          (partsFrom separator length depth next (here + 1) (separator.length - 1) more).map
            ((begun, here) :: ·)
        else partsFrom separator length depth begun (here + 1) 0 more

/-- What can be read from each of `count` positions of a text on, the first of which may be
negative. -/
def readings? (text : Text) (position : Int) (count : Nat) : Option (List Text) :=
  if position < 0 then
    let start := text.length + position
    if start < 0 then none
    else some (Text.suffixes count (text.drop start.toNat) ++ Text.suffixes count text)
  else some (Text.suffixes count (text.drop position.toNat))

/-- The parts of the range from `start` to `stop` at a separator, each with its two ends. It is an
error if the range goes beyond the text. A part ends where the separator starts, so a separator
that goes beyond the range leaves a last part that ends before it starts. -/
def parts (text : Text) (start stop : Int) (separator : Text) :
    Except LookupError (List (Int × Int)) :=
  if stop ≤ start then .ok [(start, stop)]
  else
    let length := (stop - start).toNat
    match (readings? text start length).bind (partsFrom separator length 0 0 0 0) with
    | none => .error .outOfRange
    | some found => .ok (found.map fun (first, last) => (start + first, start + last))

/-- The parts of a range that lies within the text. -/
def partsWithin (text : Text) (start stop : Nat) (separator : Text) : List (Nat × Nat) :=
  let length := stop - start
  ((partsFrom separator length 0 0 0 0 (Text.suffixes length (text.drop start))).getD []).map
    fun (first, last) => (start + first, start + last)

end Bracket

end Snippet
