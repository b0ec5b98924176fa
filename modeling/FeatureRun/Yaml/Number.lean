import FeatureRun.Yaml.Resolve
import FeatureRun.Decimal.Scientific
import FeatureRun.Text.Lines
import FeatureRun.Text.LowerCase

/-!
# Numbers in YAML

Whole numbers in four notations (decimal, octal behind a zero, binary, hexadecimal) and in groups of
sixty, and decimal fractions. A text that is tagged as a number need not have the form that makes a
plain scalar one: it may have blanks around it, digits of any script, and a second sign.
-/
set_option autoImplicit false

namespace FeatureRun.Yaml

abbrev Refused (α : Type) := Except Refusal α

def withoutGaps (s : String) : String := String.ofList (s.toList.filter (· ≠ '_'))

/-- Whether a number has a minus in front, and the rest of it. -/
def unsigned (s : String) : Refused (Bool × List Char) :=
  match s.toList with
  | [] => .error .empty
  | cs => .ok (Text.takeSign cs)

def readNumeral (base : Nat) (cs : List Char) : Refused Int :=
  (Text.readNumeral base (String.ofList cs)).mapError .numeral

/-- The number whose digits to the base sixty are separated by colons. -/
def readSixtieths (cs : List Char) : Refused Int :=
  ((Text.pieces ':' cs).mapM (readNumeral 10)).map fun ds => ds.foldl (fun n d => n * 60 + d) 0

/-- A whole number without its sign. -/
def readSize (cs : List Char) : Refused Int :=
  match cs with
  | [] => .error .empty
  | ['0'] => .ok 0
  | '0' :: 'b' :: rest => readNumeral 2 rest
  | '0' :: 'x' :: rest => readNumeral 16 rest
  | '0' :: _ => readNumeral 8 cs
  | _ => if cs.contains ':' then readSixtieths cs else readNumeral 10 cs

def readInt (s : String) : Refused Int :=
  match unsigned (withoutGaps s) with
  | .error e => .error e
  | .ok (negative, cs) => (readSize cs).map fun n => if negative then -n else n

/-- A decimal number in lower case: digits with an optional point and exponent, or a word. -/
def decimal? (cs : List Char) : Option Float :=
  let word := String.ofList cs
  if word = "inf" || word = "infinity" then some (1.0 / 0.0)
  else if word = "nan" then some (0.0 / 0.0)
  else
    let whole := cs.takeWhile isAsciiDigit
    let rest := cs.dropWhile isAsciiDigit
    let (fraction, rest) :=
      match rest with
      | '.' :: more => (more.takeWhile isAsciiDigit, more.dropWhile isAsciiDigit)
      | _ => ([], rest)
    let digits := whole ++ fraction
    let exponent : Option Int :=
      match rest with
      | [] => some 0
      | 'e' :: more =>
        let (negative, body) := Text.takeSign more
        if body.isEmpty || !body.all isAsciiDigit then none
        else some (Text.signed negative (Text.ofDigits 10 (body.map fun c => c.toNat - 48)))
      | _ => none
    match digits, exponent with
    | [], _ => none
    | _, none => none
    | ds, some e =>
      let n := Text.ofDigits 10 (ds.map fun c => c.toNat - 48)
      some (Decimal.magnitude n (e - fraction.length))

/-- A decimal digit of any script as an ASCII digit. -/
def asciiDigit (c : Char) : Char := ((Text.decimalDigit? c).map Nat.digitChar).getD c

def applySign (negative : Bool) (x : Float) : Float := if negative then -x else x

/-- A decimal number in lower case with an optional sign, in digits of any script, with blanks
allowed around it. -/
def readFraction (cs : List Char) : Refused Float :=
  let body := cs.dropWhile Text.isNumeralBlank
  let body := (body.reverse.dropWhile Text.isNumeralBlank).reverse
  let (negative, size) := Text.takeSign (body.map asciiDigit)
  match decimal? size with
  | some x => .ok (applySign negative x)
  | none => .error (.badFloat (String.ofList cs))

/-- The sum of the digits to the base sixty, from the last one on; `weight` is the next one's. -/
def sumSixtieths (weight : Nat) (sum : Float) : List Float → Refused Float
  | [] => .ok sum
  | d :: ds =>
    match Decimal.floatOfInt? weight with
    | some w => sumSixtieths (weight * 60) (sum + d * w) ds
    | none => .error .tooLarge

def readFloat (s : String) : Refused Float :=
  match unsigned (Text.lower (withoutGaps s)) with
  | .error e => .error e
  | .ok (negative, cs) =>
    let size : Refused Float :=
      if cs = ".inf".toList then .ok (1.0 / 0.0)
      else if cs = ".nan".toList then .ok (0.0 / 0.0)
      else if cs.contains ':' then
        match (Text.pieces ':' cs).mapM readFraction with
        | .error e => .error e
        | .ok ds => sumSixtieths 1 0 ds.reverse
      else readFraction cs
    size.map (applySign negative)

end FeatureRun.Yaml
