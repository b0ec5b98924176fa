import FeatureRun.Decimal.Scientific
import FeatureRun.Decimal.Binary

/-!
# Decimal digits of a double

Two ways to choose the digits of a positive double: `shortest`, the fewest digits that only this
double is nearest to, and `rounded`, a fixed number of digits with ties going to the even digit.
-/
set_option autoImplicit false

namespace FeatureRun.Decimal

/-- A positive decimal: its digits, and the power of ten of the first one. -/
structure Digits where
  digits : List Nat
  exponent : Int
  deriving DecidableEq, Repr

/-- The decimal `n · 10 ^ e` without the zeros at its end. -/
def Digits.ofNat (n : Nat) (e : Int) : Digits :=
  let ds := (Nat.toDigits 10 n).map fun c => c.toNat - '0'.toNat
  ⟨(ds.reverse.dropWhile (· == 0)).reverse, e + ds.length - 1⟩

/-- The power of ten of the first digit of a positive rational, searched upwards from `e`. -/
def leadingFrom (r : Ratio) (fuel : Nat) (e : Int) : Int :=
  match fuel with
  | 0 => e
  | fuel + 1 =>
    let next := Ratio.scale 10 1 (e + 1)
    if next.num * r.den ≤ r.num * next.den then leadingFrom r fuel (e + 1) else e

/-- The power of ten of the first digit of a positive rational between 10 ^ -330 and 10 ^ 330. -/
def leading (r : Ratio) : Int := leadingFrom r 660 (-330)

/-- The whole part of `r / 10 ^ e`, and twice what is left over with the divisor. -/
def divide (r : Ratio) (e : Int) : Nat × Nat × Nat :=
  let unit := Ratio.scale 10 1 e
  let num := r.num * unit.den
  let den := r.den * unit.num
  (num / den, 2 * (num % den), den)

/-- Whether `n · 10 ^ e` is read back as this double: it lies no further away than half the gap to
the next double, and not at the very edge unless the last bit is zero. -/
def Binary.readsBack (b : Binary) (n : Nat) (e : Int) : Bool :=
  let low := Ratio.scale 2 (4 * b.mantissa - (if b.tight then 1 else 2)) (b.exponent - 2)
  let high := Ratio.scale 2 (4 * b.mantissa + 2) (b.exponent - 2)
  let here := Ratio.scale 10 n e
  let below := low.num * here.den
  let fromBelow := here.num * low.den
  let above := high.num * here.den
  let fromAbove := here.num * high.den
  if b.mantissa % 2 = 0 then below ≤ fromBelow && fromAbove ≤ above
  else below < fromBelow && fromAbove < above

/-- The nearest decimal with its last digit at `10 ^ e` that reads back, if there is one. -/
def Binary.onGrid? (b : Binary) (e : Int) : Option Nat :=
  let (n, rest, den) := divide b.toRatio e
  let upFirst := den < rest || (rest == den && n % 2 == 1)
  let order := if upFirst then [n + 1, n] else [n, n + 1]
  order.find? fun k => b.readsBack k e

/-- The fewest digits that read back, of `count` digits or more. -/
def Binary.shortestFrom (b : Binary) (top : Int) (count fuel : Nat) : Digits :=
  match fuel with
  | 0 => .ofNat (divide b.toRatio (top - 16)).1 (top - 16)
  | fuel + 1 =>
    let e := top - count + 1
    match b.onGrid? e with
    | some n => .ofNat n e
    | none => b.shortestFrom top (count + 1) fuel

/-- The fewest digits that are read back as the same double. -/
def Binary.shortest (b : Binary) : Digits := b.shortestFrom (leading b.toRatio) 1 17

/-- The nearest decimal with `count` digits, ties going to the even last digit. -/
def Binary.rounded (b : Binary) (count : Nat) : Digits :=
  let r := b.toRatio
  let e := leading r - count + 1
  let (n, rest, den) := divide r e
  .ofNat (if den < rest || (rest == den && n % 2 == 1) then n + 1 else n) e

end FeatureRun.Decimal
