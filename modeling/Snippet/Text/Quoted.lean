import Snippet.Text.Basic
import Snippet.Text.Printable

/-!
# Quoted texts

A message shows a text between quotes. The quotes are single ones, unless the text holds a single
quote and no double one. Within them the quote and the backslash are escaped, line feed, carriage
return and tab have short escapes, and any other character that is not printable is written by its
code point in two, four or eight hexadecimal digits.
-/

namespace Snippet

namespace Text

/-- A number in hexadecimal digits, filled with zeros on the left to `width` digits. -/
def hex (width n : Nat) : Text :=
  let digits := Nat.toDigits 16 n
  List.replicate (width - digits.length) '0' ++ digits

/-- A character as it stands between quotes. -/
def quoteChar (quote c : Char) : Text :=
  if c = quote || c = '\\' then ['\\', c]
  else if c = '\n' then ['\\', 'n']
  else if c = '\r' then ['\\', 'r']
  else if c = '\t' then ['\\', 't']
  else if isPrintable c then [c]
  else if c.toNat < 0x100 then '\\' :: 'x' :: hex 2 c.toNat
  else if c.toNat < 0x10000 then '\\' :: 'u' :: hex 4 c.toNat
  else '\\' :: 'U' :: hex 8 c.toNat

/-- A text in quotes. -/
def quote (text : Text) : Text :=
  let mark := if text.contains '\'' && !text.contains '"' then '"' else '\''
  mark :: text.flatMap (quoteChar mark) ++ [mark]

end Text

end Snippet
