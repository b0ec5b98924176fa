import FeatureRun.Decimal.Digits

/-!
# Doubles as text

A `Style` says when a decimal is written positionally and when with an exponent. `shortText` writes
a double with the fewest digits that read back, `briefText` with at most six digits.
-/
set_option autoImplicit false

namespace FeatureRun.Decimal

/-- Numbers whose first digit lies from `10 ^ low` to below `10 ^ high` are written positionally;
`whole` is put behind a positional number without a fraction. -/
structure Style where
  low : Int
  high : Int
  whole : String

def digitText (ds : List Nat) : String := String.ofList (ds.map Nat.digitChar)

/-- An exponent with its sign and at least two digits. -/
def exponentText (e : Int) : String :=
  let ds := toString e.natAbs
  (if e < 0 then "-" else "+") ++ (if ds.length < 2 then "0" ++ ds else ds)

def Style.positional (style : Style) (d : Digits) : String :=
  if d.exponent < 0 then
    "0." ++ digitText (List.replicate (d.exponent.natAbs - 1) 0 ++ d.digits)
  else
    let before := d.exponent.toNat + 1
    let whole := d.digits.take before
    let fraction := d.digits.drop before
    digitText (whole ++ List.replicate (before - whole.length) 0) ++
      (if fraction.isEmpty then style.whole else "." ++ digitText fraction)

def exponential (d : Digits) : String :=
  let fraction := d.digits.drop 1
  digitText (d.digits.take 1) ++ (if fraction.isEmpty then "" else "." ++ digitText fraction) ++
    "e" ++ exponentText d.exponent

def Style.text (style : Style) (d : Digits) : String :=
  if style.low ≤ d.exponent && d.exponent < style.high then style.positional d
  else exponential d

/-- The text of a double whose digits are chosen by `choose`. -/
def Style.valueText (style : Style) (choose : Binary → Digits) : Value → String
  | .nan => "nan"
  | .infinite negative => if negative then "-inf" else "inf"
  | .finite negative b =>
    (if negative then "-" else "") ++
      (if b.mantissa = 0 then "0" ++ style.whole else style.text (choose b))

/-- The fewest digits that read back; always with a fraction, positional from 0.0001 up to
10 ^ 16. -/
def shortText (x : Float) : String :=
  (Style.mk (-4) 16 ".0").valueText Binary.shortest (.exact x)

/-- Six digits at most, without zeros at the end; positional from 0.0001 up to a million. -/
def briefText (x : Float) : String :=
  (Style.mk (-4) 6 "").valueText (Binary.rounded · 6) (.exact x)

end FeatureRun.Decimal
