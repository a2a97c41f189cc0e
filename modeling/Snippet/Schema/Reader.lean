import Snippet.Decimal.Numeral
import Snippet.Schema.Basic

/-!
# Reading single values

How strings, words of a list, numbers and truth values are taken from JSON. Whole numbers and truth
values are read leniently: a number or a string that clearly means one is taken for it.
-/

namespace Snippet

namespace Schema

/-- A string. -/
def string : Reader String
  | .str s => .valid s
  | _ => .issue .notString

/-- A string of at least `least` characters. -/
def stringFrom (least : Nat) : Reader String := fun json =>
  (string json).andThen fun s => if s.length < least then .issue (.tooShort least) else .valid s

/-- A string of at most `most` characters. -/
def stringUpTo (most : Nat) : Reader String := fun json =>
  (string json).andThen fun s => if most < s.length then .issue (.tooLong most) else .valid s

/-- One of some values, by its tag. -/
def tagged {α : Type} (issue : List String → Issue) (tag : α → String) (values : List α) :
    Reader α := fun json =>
  let found := match json with
    | .str s => values.find? fun value => tag value == s
    | _ => none
  match found with
  | some value => .valid value
  | none => .issue (issue (values.map tag))

/-- A member of an enumeration. -/
def member {α : Type} (tag : α → String) (values : List α) : Reader α :=
  tagged .notMember tag values

/-- One of some fixed words. -/
def word {α : Type} (tag : α → String) (values : List α) : Reader α :=
  tagged .notWord tag values

/-- An object, as its members. -/
def object : Reader (List (String × Json))
  | .obj members => .valid members
  | _ => .issue .notObject

/-! ### Whole numbers -/

/-- A numeral without leading zeros: its sign and its digits. -/
structure Signed where
  /-- Whether a minus sign stands in front. -/
  negative : Bool
  /-- The digits. -/
  digits : Text

namespace Signed

/-- Whether the digits are decimal digits, none of them a needless zero in front. -/
def isPlain (numeral : Signed) : Bool :=
  numeral.digits.all Char.isDigit && (numeral.digits.head? != some '0' || numeral.digits == ['0'])

/-- The number of characters of a numeral; of the signs only a minus counts. -/
def length (numeral : Signed) : Nat :=
  numeral.digits.length + (if numeral.negative then 1 else 0)

/-- The number that a numeral writes. -/
def value (numeral : Signed) : Int :=
  if numeral.negative then -(Numeral.value numeral.digits : Int) else Numeral.value numeral.digits

end Signed

/-- The numeral in a run of digits and underscores. Underscores stand between two digits, but among
leading zeros they may stand anywhere except in front. A minus sign may come right after leading
zeros, and an underscore after it. -/
def numeralOfRun? (run : Text) : Option Signed :=
  match run with
  | '0' :: rest =>
    match rest.dropWhile fun c => c == '0' || c == '_' with
    | [] => if rest.getLast? = some '_' then none else some ⟨false, ['0']⟩
    | '-' :: '_' :: kept => (Numeral.ungroup? kept).map (⟨true, ·⟩)
    | '-' :: kept => (Numeral.ungroup? kept).map (⟨true, ·⟩)
    | kept => (Numeral.ungroup? kept).map (⟨false, ·⟩)
  | _ => (Numeral.ungroup? run).map (⟨false, ·⟩)

/-- The part of a text in front of a point with zeros, of which there has to be one at least; the
text itself if it has no point. -/
def wholePart? (text : Text) : Option Text :=
  match Text.breakOn ['.'] text with
  | (whole, []) => some whole
  | (whole, _ :: fraction) =>
    if !fraction.isEmpty && fraction.all (· == '0') then some whole else none

/-- The numeral that a text means, in which there may be blanks around it, a sign, leading zeros,
underscores, and a point with zeros. There is one sign at most. -/
def numeral? (text : Text) : Option Signed := do
  let trimmed := Text.dropEndWhile Numeral.isPadding (text.dropWhile Numeral.isPadding)
  let (negative, size) := Numeral.spanSign trimmed
  let found ← numeralOfRun? (← wholePart? size)
  if found.isPlain && !(negative && found.negative) then
    return { found with negative := negative || found.negative }
  else none

/-- Whether a text opens with a numeral that is too long to be read, a minus sign in front of it
counted. Whatever follows it does not matter; blanks and zeros in front of it do. -/
def opensTooLong (text : Text) : Bool :=
  let size := match text with
    | '-' :: size => size
    | _ => text
  size.head? != some '0' &&
    digitLimit < (size.takeWhile Char.isDigit).length + (text.length - size.length)

/-- The whole number that a text means. -/
def integerOfText (text : Text) : Checked Int :=
  if opensTooLong text then .issue .integerTooLong
  else
    match numeral? text with
    | none => .issue .unreadableInteger
    | some found =>
      if digitLimit < found.length then .issue .unreadableInteger else .valid found.value

/-- The size that a whole number has to stay below if it is given as a floating-point number. -/
def realLimit : Nat := 1 <<< 63

/-- The whole number that a floating-point number is. -/
def integerOfReal (x : Float) : Checked Int :=
  match Dyadic.ofFloat? x with
  | none => .issue .notFinite
  | some value =>
    if !value.isWhole then .issue .fractional
    else
      let n := value.truncate
      if n.natAbs < realLimit then .valid n else .issue .integerTooLong

/-- A whole number. -/
def integer : Reader Int
  | .int n => .valid n
  | .bool value => .valid (if value then 1 else 0)
  | .real x => integerOfReal x
  | .str s => integerOfText s.toList
  | _ => .issue .notInteger

/-- A whole number that is not below a bound. -/
def integerFrom (bound : Int) : Reader Int := fun json =>
  (integer json).andThen fun n => if n < bound then .issue (.below bound) else .valid n

/-- A whole number above a bound. -/
def integerAbove (bound : Int) : Reader Int := fun json =>
  (integer json).andThen fun n => if n ≤ bound then .issue (.notAbove bound) else .valid n

/-! ### Numbers and truth values from texts -/

/-- The number that a text without a sign writes: digits, a point among them or at an end of them,
and an exponent; or one of the names of infinity and of the undefined number. -/
def unsignedNumber? (negative : Bool) (text : Text) : Option Float :=
  let name := String.ofList (text.map Char.toLower)
  if name = "inf" ∨ name = "infinity" then
    some (if negative then -1.0 / 0.0 else 1.0 / 0.0)
  else if name = "nan" then some (0.0 / 0.0)
  else
    let whole := text.takeWhile Char.isDigit
    let rest := text.dropWhile Char.isDigit
    let (fraction, rest) := match rest with
      | '.' :: rest => (rest.takeWhile Char.isDigit, rest.dropWhile Char.isDigit)
      | _ => ([], rest)
    if whole.isEmpty && fraction.isEmpty then none
    else
      let number (power : Int) :=
        Decimal.nearest negative (Numeral.value (whole ++ fraction)) (power - fraction.length)
      match rest with
      | [] => some (number 0)
      | e :: rest =>
        let (down, digits) := Numeral.spanSign rest
        if (e = 'e' ∨ e = 'E') ∧ digits ≠ [] ∧ digits.all Char.isDigit then
          let power : Int := Numeral.value digits
          some (number (if down then -power else power))
        else none

/-- The number that a text writes, with a sign or without. -/
def signedNumber? (text : Text) : Option Float :=
  let (negative, size) := Numeral.spanSign text
  unsignedNumber? negative size

/-- The number that a text means; single underscores may stand within it. -/
def numberOfText (text : Text) : Checked Float :=
  let trimmed := Text.dropEndWhile Numeral.isPadding (text.dropWhile Numeral.isPadding)
  let found := match signedNumber? trimmed with
    | some x => some x
    | none => (Numeral.ungroup? text).bind signedNumber?
  match found with
  | some x => .valid x
  | none => .issue .unreadableNumber

/-- The words for true. -/
def yesWords : List String := ["1", "t", "true", "y", "yes", "on"]

/-- The words for false. -/
def noWords : List String := ["0", "f", "false", "n", "no", "off"]

/-- The truth value that a text means, in any letter case. -/
def booleanOfText (text : Text) : Checked Bool :=
  let word := String.ofList (text.map Char.toLower)
  if yesWords.contains word then .valid true
  else if noWords.contains word then .valid false
  else .issue .unreadableBoolean

end Schema

end Snippet
