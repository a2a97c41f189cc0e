import Snippet.Text.Blank
import Snippet.Text.Digit
import Snippet.Text.Quoted

/-!
# Whole numbers in decimal

A numeral is a run of decimal digits of any script. Numerals of more than 4300 digits are neither
read nor written. A text writes a whole number if it is a numeral, possibly with a sign in front,
single underscores between digits, and blanks around it.
-/

namespace Snippet

/-- The most digits that a number may be read from or written with. -/
def digitLimit : Nat := 4300

/-- Why a number is not read or not written. -/
inductive NumeralError where
  /-- The text writes no whole number. -/
  | invalid (text : Text)
  /-- The numeral to be read has too many digits. -/
  | tooLongToRead (count : Nat)
  /-- The number to be written has too many digits. -/
  | tooLongToWrite

namespace NumeralError

/-- The limit and the way past it, as the messages put it. -/
def limitMessage (detail : String) : String :=
  "Exceeds the limit (" ++ toString digitLimit ++ " digits) for integer string conversion" ++
    detail ++ "; use sys.set_int_max_str_digits() to increase the limit"

/-- What is reported about the error. -/
def message : NumeralError → String
  | invalid text =>
    "invalid literal for int() with base 10: " ++ String.ofList (Text.quote text)
  | tooLongToRead count => limitMessage (": value has " ++ toString count ++ " digits")
  | tooLongToWrite => limitMessage ""

end NumeralError

namespace Numeral

/-- The number that decimal digits of any script write. -/
def value (digits : Text) : Nat :=
  digits.foldl (fun n c => n * 10 + (digitValue? c).getD 0) 0

/-- The number that a numeral writes, if it is not too long. -/
def read (digits : Text) : Except NumeralError Nat :=
  if digitLimit < digits.length then .error (.tooLongToRead digits.length)
  else .ok (value digits)

/-- The decimal text of a number, if it is not too long. -/
def write (n : Int) : Except NumeralError String :=
  if Nat.pow 10 digitLimit ≤ n.natAbs then .error .tooLongToWrite else .ok (toString n)

/-- Whether a character may stand around a number: white space, but no information separator. -/
def isPadding (c : Char) : Bool :=
  isBlank c && !(28 ≤ c.toNat && c.toNat < 32)

/-- The digits of a run of digits and underscores, if each underscore stands between two digits. -/
def ungroup? (run : Text) : Option Text :=
  let groups := Text.splitOn '_' run
  if groups.any (·.isEmpty) then none else some groups.flatten

/-- The sign that a text opens with, and the rest. -/
def spanSign : Text → Bool × Text
  | '-' :: rest => (true, rest)
  | '+' :: rest => (false, rest)
  | text => (false, text)

/-- The whole number that a text writes. A numeral that is too long is refused before what follows
it is looked at. -/
def readInteger (text : Text) : Except NumeralError Int :=
  let (negative, body) := spanSign (text.dropWhile isPadding)
  let inRun := fun c => isDecimal c || c == '_'
  match ungroup? (body.takeWhile inRun) with
  | none => .error (.invalid text)
  | some digits => do
    let n ← read digits
    if (body.dropWhile inRun).all isPadding then return if negative then -(n : Int) else n
    else .error (.invalid text)

end Numeral

end Snippet
