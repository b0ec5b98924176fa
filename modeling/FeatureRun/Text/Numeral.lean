import FeatureRun.Text.Blank
import FeatureRun.Text.Digit
import FeatureRun.Text.Quoted

/-!
# Reading whole numbers

A numeral is an optional sign and digits to some base, with single underscores allowed between
digits and blanks allowed around the whole. The digits are the decimal digits of any script and the
letters of ASCII. The bases two, eight and sixteen have a mark that may stand in front of the
digits; to any other base, numerals of more than `maxDigits` digits are refused.
-/
set_option autoImplicit false

namespace FeatureRun.Text

/-- Why a text is not read as a whole number. -/
inductive NumeralError where
  | malformed (base : Nat) (text : String)
  | tooLong (digits : Nat)
  deriving DecidableEq, Repr

/-- The most digits that a numeral may have. -/
def maxDigits : Nat := 4300

/-- At most this many characters of a malformed numeral are shown. -/
def shownNumeral : Nat := 200

def NumeralError.message : NumeralError → String
  | .malformed base s =>
    "invalid literal for int() with base " ++ toString base ++ ": " ++
      String.ofList ((quoted s).toList.take shownNumeral)
  | .tooLong n =>
    "Exceeds the limit (4300 digits) for integer string conversion: value has " ++ toString n ++
      " digits; use sys.set_int_max_str_digits() to increase the limit"

/-- A blank that may stand around a numeral; the separators U+001C to U+001F may not. -/
def isNumeralBlank (c : Char) : Bool := isBlank c && !(0x1C ≤ c.toNat && c.toNat ≤ 0x1F)

/-- The value of a letter as a digit: ten and more. -/
def letterDigit? (c : Char) : Option Nat :=
  if 'a' ≤ c ∧ c ≤ 'z' then some (c.toNat - 'a'.toNat + 10)
  else if 'A' ≤ c ∧ c ≤ 'Z' then some (c.toNat - 'A'.toNat + 10)
  else none

/-- The value of a digit to a base. -/
def digitIn? (base : Nat) (c : Char) : Option Nat :=
  (decimalDigit? c <|> letterDigit? c).filter (· < base)

/-- The digits at the start of a text and what follows them. `gap` says that a digit must come
next: at the start, and after an underscore. -/
def takeDigits (base : Nat) (gap : Bool) : List Char → Option (List Nat × List Char)
  | [] => if gap then none else some ([], [])
  | c :: rest =>
    match digitIn? base c with
    | some d => (takeDigits base false rest).map fun (ds, more) => (d :: ds, more)
    | none =>
      if gap then none
      else if c = '_' then takeDigits base true rest
      else some ([], c :: rest)

/-- The number written by digits, the most significant first. -/
def ofDigits (base : Nat) (ds : List Nat) : Nat := ds.foldl (fun n d => n * base + d) 0

/-- An optional sign: whether it is a minus, and what follows it. -/
def takeSign : List Char → Bool × List Char
  | '-' :: rest => (true, rest)
  | '+' :: rest => (false, rest)
  | cs => (false, cs)

def signed (negative : Bool) (n : Nat) : Int := if negative then -(n : Int) else n

/-- The letter behind a zero that marks numerals to a base. -/
def baseMark? : Nat → Option Char
  | 2 => some 'b'
  | 8 => some 'o'
  | 16 => some 'x'
  | _ => none

/-- What follows the mark of a base, if it stands here, and an underscore behind the mark. -/
def dropMark (base : Nat) : List Char → List Char
  | z :: m :: rest =>
    if decimalDigit? z = some 0 ∧ baseMark? base = some m.toLower then
      match rest with
      | '_' :: more => more
      | _ => rest
    else z :: m :: rest
  | cs => cs

/-- The whole number that a text holds as a numeral to a base. -/
def readNumeral (base : Nat) (s : String) : Except NumeralError Int :=
  let (negative, body) := takeSign (s.toList.dropWhile isNumeralBlank)
  match takeDigits base true (dropMark base body) with
  | none => .error (.malformed base s)
  | some (ds, rest) =>
    if (baseMark? base).isNone && ds.length > maxDigits then .error (.tooLong ds.length)
    else if rest.all isNumeralBlank then .ok (signed negative (ofDigits base ds))
    else .error (.malformed base s)

/-- The whole number that a text holds as a decimal numeral. -/
def readInt (s : String) : Except NumeralError Int := readNumeral 10 s

/-- The decimal digits of all scripts are the digits to the base ten. -/
theorem digitIn?_ten (c : Char) : digitIn? 10 c = decimalDigit? c := by
  unfold digitIn?
  cases h : decimalDigit? c with
  | some d => simp [decimalDigit?_lt h]
  | none =>
    unfold letterDigit?
    split
    · simp
    · split <;> simp

end FeatureRun.Text
