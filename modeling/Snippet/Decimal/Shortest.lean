import Snippet.Decimal.Dyadic

/-!
# Floating-point numbers in decimal

A finite number is written with the fewest decimal digits that read back as the same number, and
among those with the digits nearest to it. Numbers from a ten-thousandth up to ten to the sixteenth
stand in positional notation with at least one digit after the point, others with an exponent.

The digits are found in exact arithmetic. A number reads back as `x` when it lies in the interval
between the midpoints from `x` to its two neighbours; for each number of digits, in order, the two
decimals next to `x` are tried.
-/

namespace Snippet

namespace Dyadic

/-- The bounds of the interval that rounds to a value, and the value between them, in quarters of
its unit. -/
def quarters (x : Dyadic) : Nat × Nat × Nat :=
  (4 * x.mantissa - (if x.atPowerOfTwo then 1 else 2), 4 * x.mantissa, 4 * x.mantissa + 2)

/-- The number of quarters `size` of the unit of `x`, and the decimal `digits * 10 ^ power`, brought
to one scale. -/
def toScale (x : Dyadic) (size : Nat) (digits : Nat) (power : Int) : Nat × Nat :=
  let e := x.exponent - 2
  ((size <<< e.toNat) * Nat.pow 10 (-power).toNat,
    (digits * Nat.pow 10 power.toNat) <<< (-e).toNat)

/-- Whether a decimal reads back as `x`. An end of the interval does so if the mantissa is even. -/
def readsBack (x : Dyadic) (digits : Nat) (power : Int) : Bool :=
  let (low, _, high) := x.quarters
  let (below, decimal) := x.toScale low digits power
  let (above, _) := x.toScale high digits power
  if x.mantissa % 2 = 0 then below ≤ decimal && decimal ≤ above
  else below < decimal && decimal < above

/-- The exponent of ten of the first digit of a positive value. -/
def leadingPower (x : Dyadic) : Int :=
  let (whole, _, _) := x.divide
  if 0 < whole then (Nat.toDigits 10 whole).length - 1
  else
    let shifted := (x.mantissa * Nat.pow 10 400) >>> (-x.exponent).toNat
    (Nat.toDigits 10 shifted).length - 401

/-- The decimal with `count` digits that reads back as a positive `x` and is nearest to it. -/
def withDigits? (x : Dyadic) (count : Nat) : Option (Nat × Int) :=
  let power := x.leadingPower - count + 1
  let (value, unit) := x.toScale (4 * x.mantissa) 1 power
  let lower := value / unit
  let nearer := if 2 * (value % unit) < unit || (2 * (value % unit) == unit && lower % 2 == 0)
    then [lower, lower + 1] else [lower + 1, lower]
  (nearer.find? (x.readsBack · power)).map (·, power)

/-- The shortest decimal that reads back as a positive `x`: its digits and the power of ten of the
last one. Seventeen digits always do. -/
def shortest (x : Dyadic) : Nat × Int :=
  ((List.range 17).findSome? fun count => x.withDigits? (count + 1)).getD (0, 0)

end Dyadic

namespace Decimal

/-- Digits without the zeros at their end, of which the power of ten takes account. -/
def dropZeros (digits : List Char) (power : Int) : List Char × Int :=
  let kept := (digits.reverse.dropWhile (· == '0')).reverse
  (kept, power + (digits.length - kept.length : Nat))

/-- An exponent: its sign and at least two digits. -/
def exponentText (e : Int) : String :=
  let digits := toString e.natAbs
  (if e < 0 then "e-" else "e+") ++ (if digits.length < 2 then "0" else "") ++ digits

/-- A positive number, given by its digits and the power of ten of the last one. -/
def positiveText (digits : List Char) (power : Int) : String :=
  let first := power + digits.length - 1
  if -4 ≤ first && first < 16 then
    if first < 0 then
      "0." ++ String.ofList (List.replicate (-first - 1).toNat '0' ++ digits)
    else
      let whole := (first + 1).toNat
      let padded := digits ++ List.replicate (whole - digits.length) '0'
      let fraction := padded.drop whole
      String.ofList (padded.take whole) ++ "." ++
        (if fraction.isEmpty then "0" else String.ofList fraction)
  else
    let fraction := digits.drop 1
    String.ofList (digits.take 1) ++
      (if fraction.isEmpty then "" else "." ++ String.ofList fraction) ++ exponentText first

/-- **The shortest decimal text of a floating-point number.** -/
def text (x : Float) : String :=
  match Dyadic.ofFloat? x with
  | none => if x.isNaN then "nan" else if x < 0 then "-inf" else "inf"
  | some value =>
    let sign := if value.negative then "-" else ""
    if value.mantissa = 0 then sign ++ "0.0"
    else
      let (digits, power) := value.shortest
      let (digits, power) := dropZeros (Nat.toDigits 10 digits) power
      sign ++ positiveText digits power

/-- The floating-point number nearest to `digits * 10 ^ power`, negated if `negative`. Powers that
no number of the format comes near are cut off first. -/
def nearest (negative : Bool) (digits : Nat) (power : Int) : Float :=
  let size : Float :=
    if digits = 0 then 0.0
    else
      let first := power + (Nat.toDigits 10 digits).length
      if 400 < first then 1.0 / 0.0
      else if first < -400 then 0.0
      else if power < 0 then Float.ofScientific digits true power.natAbs
      else Float.ofScientific digits false power.natAbs
  if negative then -size else size

end Decimal

end Snippet
