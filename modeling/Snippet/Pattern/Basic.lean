import Snippet.Text.Basic
import Snippet.Text.Blank
import Snippet.Text.Word
import Snippet.Text.Digit
import Snippet.Text.Lowercase

/-!
# Patterns over texts

A pattern describes pieces of a text together with what stands around them. Repetition is over
single characters only, which is all that the rules about snippets need; a pattern is therefore
matched by recursion on the pattern alone.

Matching is by backtracking: alternatives are tried in order, `many` takes as many characters as it
can and gives them back one by one, `fewest` takes as few as it can. The first way that fits is the
match, and what its groups hold is read off that way.
-/

namespace Snippet

/-- A place in a text: the character before it, how many characters precede it, and what follows. -/
structure Place where
  /-- The character just before the place, if there is one. -/
  last : Option Char
  /-- The number of characters before the place. -/
  offset : Nat
  /-- The text from the place on. -/
  rest : Text

namespace Place

/-- The place in front of a text. -/
def start (text : Text) : Place := ⟨none, 0, text⟩

/-- The place after `n` more characters, or the end of the text. -/
def advance : Nat → Place → Place
  | 0, place => place
  | n + 1, place =>
    match place.rest with
    | [] => place
    | c :: rest => advance n ⟨some c, place.offset + 1, rest⟩

/-- The place of a given offset in a text. -/
def ofOffset (text : Text) (offset : Nat) : Place := advance offset (start text)

/-- The offset of the end of the text that the place lies in. -/
def textEnd (place : Place) : Nat := place.offset + place.rest.length

/-- Whether one of the two neighbours of the place is a word character and the other is not. -/
def isEdge (place : Place) : Bool :=
  place.last.any isWord != place.rest.head?.any isWord

@[simp] theorem rest_advance (n : Nat) (place : Place) :
    (advance n place).rest = place.rest.drop n := by
  induction n generalizing place with
  | zero => rfl
  | succ n ih =>
    rw [advance]
    split
    next h => simp [h]
    next c rest h => simp [ih, h]

end Place

/-- The piece of a text that a group holds: the text from its start on, and its length. -/
structure Capture where
  source : Text
  length : Nat

/-- The captured piece. -/
def Capture.text (capture : Capture) : Text := capture.source.take capture.length

/-- What the groups of a pattern have held so far, the latest first. -/
abbrev Groups := List (Nat × Capture)

/-- What a group holds. -/
def Groups.text (groups : Groups) (index : Nat) : Text :=
  ((groups.lookup index).map Capture.text).getD []

/-- A description of pieces of a text. -/
inductive Pattern where
  /-- The empty piece. -/
  | empty
  /-- One character of a class. -/
  | one (p : Char → Bool)
  /-- Characters of a class, as many as possible. -/
  | many (p : Char → Bool)
  /-- Characters of a class, as few as possible. -/
  | fewest (p : Char → Bool)
  /-- A piece, and another one right after it. -/
  | seq (first second : Pattern)
  /-- A piece of the first kind, or else one of the second. -/
  | either (first second : Pattern)
  /-- A piece, whose text the group keeps. -/
  | group (index : Nat) (inner : Pattern)
  /-- A piece that is the text that the group holds, up to letter case if `anyCase`. -/
  | again (index : Nat) (anyCase : Bool)
  /-- The empty piece, between a word character and a character that is none. -/
  | edge
  /-- The empty piece, unless a character of the class stands before it. -/
  | notAfter (p : Char → Bool)
  /-- The empty piece in front of a character of the class. -/
  | before (p : Char → Bool)
  /-- The empty piece at the start of the text or after a line feed. -/
  | lineStart

namespace Pattern

instance : Append Pattern := ⟨seq⟩

/-- The characters of `s`, one after the other. -/
def lit (s : String) : Pattern :=
  s.toList.foldr (fun c tail => one (· == c) ++ tail) empty

/-- Whether a character is a given lower-case letter but for case. The dotless `i` and the long `s`
count as forms of `i` and `s`. -/
def isFormOf (letter c : Char) : Bool :=
  lowercase c == letter || (letter == 'i' && c == 'ı') || (letter == 's' && c == 'ſ')

/-- The characters of `s`, which is in lower case, in any letter case. -/
def anyCase (s : String) : Pattern :=
  s.toList.foldr (fun c tail => one (isFormOf c) ++ tail) empty

/-- The text that a group holds. -/
def same (index : Nat) : Pattern := again index false

/-- The text that a group holds, in any letter case. -/
def sameButCase (index : Nat) : Pattern := again index true

/-- The first of the patterns that fits; with none of them, nothing fits. -/
def firstOf : List Pattern → Pattern
  | [] => one fun _ => false
  | [p] => p
  | p :: more => either p (firstOf more)

/-- The piece, or else the empty one. -/
def optional (p : Pattern) : Pattern := either p empty

/-- Blank characters, or none. -/
def blanks : Pattern := many isBlank

/-- At least one blank character. -/
def someBlanks : Pattern := one isBlank ++ blanks

/-- Word characters, or none. -/
def word : Pattern := many isWord

/-- At least one word character. -/
def someWord : Pattern := one isWord ++ word

/-- A name: a letter or an underscore, and word characters after it. -/
def name : Pattern := one isNameStart ++ word

/-- At least one decimal digit. -/
def digits : Pattern := one isDecimal ++ many isDecimal

/-- The character `c`. -/
def char (c : Char) : Pattern := one (· == c)

/-- The character `c` after any blank characters. -/
def next (c : Char) : Pattern := blanks ++ char c

/-- The characters of `s` that no word character touches. -/
def keyword (s : String) : Pattern := edge ++ lit s ++ edge

end Pattern

end Snippet
