import Snippet.Json.Basic

/-!
# Writing JSON

A value is written on one line, without blanks. In a string the quote, the backslash and the control
characters are escaped, and every other character stands for itself.
-/

namespace Snippet

namespace Json

/-- A character as it stands in a JSON string. -/
def escapeChar (c : Char) : Text :=
  if c = '"' then ['\\', '"']
  else if c = '\\' then ['\\', '\\']
  else if c.toNat < 0x20 || c.toNat = 0x7F then '\\' :: 'u' :: Text.hex 4 c.toNat
  else [c]

/-- A JSON string. -/
def stringText (s : String) : Text :=
  '"' :: s.toList.flatMap escapeChar ++ ['"']

/-- A floating-point number; those that are not finite have names. -/
def realText (x : Float) : String :=
  if x.isNaN then "NaN"
  else if x.isInf then (if x < 0 then "-Infinity" else "Infinity")
  else Decimal.text x

mutual

/-- The written form of a value. -/
def text : Json → Text
  | null => "null".toList
  | bool true => "true".toList
  | bool false => "false".toList
  | int value => (toString value).toList
  | real value => (realText value).toList
  | str value => stringText value
  | arr items => '[' :: Text.join [','] (itemTexts items) ++ [']']
  | obj members => '{' :: Text.join [','] (memberTexts members) ++ ['}']

/-- The written forms of several values. -/
def itemTexts : List Json → List Text
  | [] => []
  | item :: more => text item :: itemTexts more

/-- The written forms of the members of an object. -/
def memberTexts : List (String × Json) → List Text
  | [] => []
  | (key, value) :: more => (stringText key ++ ':' :: text value) :: memberTexts more

end

end Json

end Snippet
