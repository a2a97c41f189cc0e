/-!
# Floating-point numbers as exact values

A finite floating-point number is a whole number times a power of two. This form makes the
questions that are asked of such numbers exact: the part before the point, whether there is
anything after it, and the nearest whole number.
-/

namespace Snippet

/-- The value `mantissa * 2 ^ exponent`, negated if `negative`. -/
structure Dyadic where
  negative : Bool
  mantissa : Nat
  exponent : Int
  /-- Whether the next smaller number of the format is only half as far away as the next larger. -/
  atPowerOfTwo : Bool

namespace Dyadic

/-- The exact value of a finite floating-point number. -/
def ofFloat? (x : Float) : Option Dyadic :=
  let bits := x.toBits.toNat
  let unit : Nat := 1 <<< 52
  let scale : Nat := bits / unit % 2048
  let fraction : Nat := bits % unit
  let negative : Bool := bits / unit / 2048 == 1
  if scale = 2047 then none
  else if scale = 0 then some ⟨negative, fraction, -1074, false⟩
  else some ⟨negative, unit + fraction, (scale : Int) - 1075, fraction == 0 && 1 < scale⟩

/-- The sign put before a size. -/
def signed (x : Dyadic) (size : Nat) : Int :=
  if x.negative then -size else size

/-- The number before the point, and the numerator and denominator of what is cut off. -/
def divide (x : Dyadic) : Nat × Nat × Nat :=
  match x.exponent with
  | .ofNat e => (x.mantissa <<< e, 0, 1)
  | .negSucc e =>
    let unit : Nat := 1 <<< (e + 1)
    (x.mantissa / unit, x.mantissa % unit, unit)

/-- The whole number next to zero's side: what stands before the point. -/
def truncate (x : Dyadic) : Int :=
  x.signed x.divide.1

/-- Whether nothing stands after the point. -/
def isWhole (x : Dyadic) : Bool :=
  x.divide.2.1 == 0

/-- The nearest whole number; a half goes to the even neighbour. -/
def round (x : Dyadic) : Int :=
  let (whole, remainder, unit) := x.divide
  let up := unit < 2 * remainder || (unit == 2 * remainder && whole % 2 == 1)
  x.signed (if up then whole + 1 else whole)

end Dyadic

end Snippet
