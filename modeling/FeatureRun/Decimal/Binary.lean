/-!
# Doubles as exact numbers

A finite double is a whole number times a power of two. `Value.exact` reads both off its bits.
-/
set_option autoImplicit false

namespace FeatureRun.Decimal

/-- The number `mantissa · 2 ^ exponent`. `tight` says that the double below is only half as far
away as the double above. -/
structure Binary where
  mantissa : Nat
  exponent : Int
  tight : Bool
  deriving DecidableEq, Repr

/-- What a double stands for. -/
inductive Value where
  | nan
  | infinite (negative : Bool)
  | finite (negative : Bool) (size : Binary)
  deriving DecidableEq, Repr

/-- The value of the double with these 64 bits. -/
def Value.ofBits (bits : Nat) : Value :=
  let negative := bits >>> 63 == 1
  let exponent : Nat := (bits >>> 52) % 2048
  let fraction := bits % (1 <<< 52)
  if exponent = 2047 then
    if fraction = 0 then .infinite negative else .nan
  else if exponent = 0 then .finite negative ⟨fraction, -1074, false⟩
  else
    .finite negative
      ⟨(1 <<< 52) + fraction, (exponent : Int) - 1075, fraction == 0 && exponent != 1⟩

def Value.exact (x : Float) : Value := .ofBits x.toBits.toNat

/-- A non-negative rational number. -/
structure Ratio where
  num : Nat
  den : Nat

def Ratio.scale (base : Nat) (n : Nat) (e : Int) : Ratio :=
  if e < 0 then ⟨n, Nat.pow base e.natAbs⟩ else ⟨n * Nat.pow base e.natAbs, 1⟩

def Binary.toRatio (b : Binary) : Ratio := .scale 2 b.mantissa b.exponent

end FeatureRun.Decimal
