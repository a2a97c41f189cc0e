import Snippet.Decimal.Numeral
import Snippet.Json.Basic

/-!
# Reading JSON

The reader takes the JSON grammar with three more numbers, `NaN`, `Infinity` and `-Infinity`. Blanks
between the parts are spaces, tabs, line feeds and carriage returns. A repeated key takes its last
value. A whole number of more than 4300 digits is refused.
-/

namespace Snippet

namespace Json

/-- Why a text cannot be read. -/
inductive ReadError where
  /-- The text is no JSON value. -/
  | malformed
  /-- A whole number has too many digits. -/
  | tooManyDigits

/-- Drops the blanks between the parts of a JSON text. -/
def skipBlanks (text : Text) : Text :=
  text.dropWhile fun c => c == ' ' || c == '\t' || c == '\n' || c == '\r'

/-- The value of a hexadecimal digit. -/
def hexValue? (c : Char) : Option Nat :=
  if c.isDigit then some (c.toNat - 48)
  else if 'a' ≤ c && c ≤ 'f' then some (c.toNat - 87)
  else if 'A' ≤ c && c ≤ 'F' then some (c.toNat - 55)
  else none

/-- The number that four hexadecimal digits write. -/
def fourHex? (a b c d : Char) : Option Nat := do
  let a ← hexValue? a
  let b ← hexValue? b
  let c ← hexValue? c
  let d ← hexValue? d
  return ((a * 16 + b) * 16 + c) * 16 + d

/-- The character of a short escape. -/
def shortEscape? : Char → Option Char
  | '"' => some '"'
  | '\\' => some '\\'
  | '/' => some '/'
  | 'b' => some '\x08'
  | 'f' => some '\x0c'
  | 'n' => some '\n'
  | 'r' => some '\r'
  | 't' => some '\t'
  | _ => none

/-- Units of 16 bits put together to characters; half of a pair without the other half is
replaced. -/
def joinUnits : List Nat → Text
  | [] => []
  | high :: rest =>
    if 0xD800 ≤ high && high < 0xDC00 then
      match rest with
      | low :: more =>
        if 0xDC00 ≤ low && low < 0xE000 then
          Char.ofNat (0x10000 + (high - 0xD800) * 0x400 + (low - 0xDC00)) :: joinUnits more
        else '\uFFFD' :: joinUnits (low :: more)
      | [] => ['\uFFFD']
    else if 0xDC00 ≤ high && high < 0xE000 then '\uFFFD' :: joinUnits rest
    else Char.ofNat high :: joinUnits rest

/-- The code units and characters of a string up to its closing quote, and the text after it. A
character is a unit of its own. -/
def stringUnits? : Text → Option (List Nat × Text)
  | [] => none
  | '"' :: rest => some ([], rest)
  | '\\' :: 'u' :: a :: b :: c :: d :: rest => do
    let unit ← fourHex? a b c d
    let (units, rest) ← stringUnits? rest
    return (unit :: units, rest)
  | '\\' :: c :: rest => do
    let c ← shortEscape? c
    let (units, rest) ← stringUnits? rest
    return (c.toNat :: units, rest)
  | c :: rest =>
    if c.toNat < 0x20 || c = '\\' then none
    else do
      let (units, rest) ← stringUnits? rest
      return (c.toNat :: units, rest)

/-- A string, from behind its opening quote. -/
def string? (text : Text) : Option (String × Text) :=
  (stringUnits? text).map fun (units, rest) => (String.ofList (joinUnits units), rest)

/-- The number that a list of decimal digits writes. -/
def digitsValue (digits : Text) : Nat :=
  digits.foldl (fun n c => n * 10 + (c.toNat - 48)) 0

/-- The digits that a text opens with, and the rest. -/
def spanDigits (text : Text) : Text × Text :=
  (text.takeWhile (·.isDigit), text.dropWhile (·.isDigit))

/-- The digits after the point, if a point and a digit follow. -/
def fraction (text : Text) : Text × Text :=
  match text with
  | '.' :: rest =>
    let (digits, rest) := spanDigits rest
    if digits.isEmpty then ([], text) else (digits, rest)
  | _ => ([], text)

/-- The exponent, if one follows. -/
def exponent (text : Text) : Option Int × Text :=
  match text with
  | e :: rest =>
    if e = 'e' || e = 'E' then
      let (negative, rest) := match rest with
        | '-' :: rest => (true, rest)
        | '+' :: rest => (false, rest)
        | rest => (false, rest)
      let (digits, rest) := spanDigits rest
      if digits.isEmpty then (none, text)
      else
        let size : Int := digitsValue digits
        (some (if negative then -size else size), rest)
    else (none, text)
  | [] => (none, text)

/-- A number from its first digit on. -/
def number (negative : Bool) (text : Text) : Except ReadError (Json × Text) :=
  let (whole, rest) := match text with
    | '0' :: rest => (['0'], rest)
    | _ => spanDigits text
  if whole.isEmpty then .error .malformed
  else
    let (decimals, rest) := fraction rest
    let (power?, rest) := exponent rest
    if decimals.isEmpty && power?.isNone then
      if digitLimit < whole.length then .error .tooManyDigits
      else
        let size : Int := digitsValue whole
        .ok (int (if negative then -size else size), rest)
    else
      let power := power?.getD 0 - decimals.length
      .ok (real (Decimal.nearest negative (digitsValue (whole ++ decimals)) power), rest)

/-- The constants, each with its value. -/
def constants : List (Text × Json) :=
  [("null".toList, null), ("true".toList, bool true), ("false".toList, bool false),
    ("NaN".toList, real (0.0 / 0.0)), ("Infinity".toList, real (1.0 / 0.0)),
    ("-Infinity".toList, real (-1.0 / 0.0))]

/-- A constant or a number. -/
def scalar (text : Text) : Except ReadError (Json × Text) :=
  match constants.find? fun (word, _) => word.isPrefixOf text with
  | some (word, value) => .ok (value, text.drop word.length)
  | none =>
    match text with
    | '-' :: rest => number true rest
    | _ => number false text

mutual

/-- The value that a text opens with, and the rest; `fuel` bounds how many values are read. -/
def value (fuel : Nat) (text : Text) : Except ReadError (Json × Text) :=
  match fuel with
  | 0 => .error .malformed
  | fuel + 1 =>
    match text with
    | '"' :: rest =>
      match string? rest with
      | some (s, rest) => .ok (str s, rest)
      | none => .error .malformed
    | '[' :: rest =>
      match skipBlanks rest with
      | ']' :: rest => .ok (arr [], rest)
      | rest => do
        let (items, rest) ← items fuel rest
        return (arr items, rest)
    | '{' :: rest =>
      match skipBlanks rest with
      | '}' :: rest => .ok (obj [], rest)
      | rest => do
        let (members, rest) ← members fuel [] rest
        return (obj members, rest)
    | _ => scalar text

/-- The items of an array up to its closing bracket. -/
def items (fuel : Nat) (text : Text) : Except ReadError (List Json × Text) :=
  match fuel with
  | 0 => .error .malformed
  | fuel + 1 => do
    let (item, rest) ← value fuel text
    match skipBlanks rest with
    | ']' :: rest => return ([item], rest)
    | ',' :: rest =>
      let (more, rest) ← items fuel (skipBlanks rest)
      return (item :: more, rest)
    | _ => .error .malformed

/-- The members of an object up to its closing brace, after the members `known` before them. -/
def members (fuel : Nat) (known : List (String × Json)) (text : Text) :
    Except ReadError (List (String × Json) × Text) :=
  match fuel with
  | 0 => .error .malformed
  | fuel + 1 =>
    match text with
    | '"' :: rest =>
      match string? rest with
      | none => .error .malformed
      | some (key, rest) =>
        match skipBlanks rest with
        | ':' :: rest => do
          let (item, rest) ← value fuel (skipBlanks rest)
          let known := insert key item known
          match skipBlanks rest with
          | '}' :: rest => return (known, rest)
          | ',' :: rest => members fuel known (skipBlanks rest)
          | _ => .error .malformed
        | _ => .error .malformed
    | _ => .error .malformed

end

/-- The value that a whole text writes. Every value takes at least one character, so the length of
the text is fuel enough. -/
def read (text : Text) : Except ReadError Json := do
  let (json, rest) ← value (2 * text.length + 1) (skipBlanks text)
  if (skipBlanks rest).isEmpty then return json else .error .malformed

end Json

end Snippet
