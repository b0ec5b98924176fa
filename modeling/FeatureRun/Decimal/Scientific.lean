/-!
# Decimal numbers in scientific form

A whole number times a power of ten, and the double nearest to it.
-/
set_option autoImplicit false

namespace FeatureRun.Decimal

/-- The number `±mantissa · 10 ^ exponent`. -/
structure Scientific where
  negative : Bool
  mantissa : Nat
  exponent : Int
  deriving DecidableEq, Repr

/-- How many decimal digits a number has. -/
def width (n : Nat) : Nat := (Nat.toDigits 10 n).length

/-- The double nearest to `n · 10 ^ e`. Beyond 10 ^ 400 every number is infinite and below
10 ^ -400 every number is zero, so no power of ten that large is ever formed. -/
def magnitude (n : Nat) (e : Int) : Float :=
  if n = 0 then 0
  else
    let top := e + width n
    if top > 400 then 1.0 / 0.0
    else if top < -400 then 0
    else Float.ofScientific n (e < 0) e.natAbs

def Scientific.toFloat (s : Scientific) : Float :=
  if s.negative then -(magnitude s.mantissa s.exponent) else magnitude s.mantissa s.exponent

/-- The double nearest to a whole number, unless that is infinite. -/
def floatOfInt? (n : Int) : Option Float :=
  let x := magnitude n.natAbs 0
  if x.isInf then none else some (if n < 0 then -x else x)

end FeatureRun.Decimal
