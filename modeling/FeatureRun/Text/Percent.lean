import FeatureRun.Text.Utf8

/-!
# Percent decoding

A percent sign with two hexadecimal digits stands for a byte; the bytes of a stretch of ASCII text
are read as UTF-8, with U+FFFD for what is ill-formed. Any other percent sign stands for itself.
-/
set_option autoImplicit false

namespace FeatureRun.Text.Percent

def hexValue? (c : Char) : Option Nat :=
  let n := c.toNat
  if 48 ≤ n ∧ n ≤ 57 then some (n - 48)
  else if 65 ≤ n ∧ n ≤ 70 then some (n - 55)
  else if 97 ≤ n ∧ n ≤ 102 then some (n - 87)
  else none

def isAscii (c : Char) : Bool := c.toNat < 0x80

/-- The byte of two hexadecimal digits. -/
def byte? (a b : Char) : Option UInt8 :=
  match hexValue? a, hexValue? b with
  | some x, some y => some (UInt8.ofNat (x * 16 + y))
  | _, _ => none

/-- The bytes that a stretch of ASCII text stands for. -/
def bytes : List Char → List UInt8
  | [] => []
  | '%' :: a :: b :: rest =>
    match byte? a b with
    | some x => x :: bytes rest
    | none => UInt8.ofNat '%'.toNat :: bytes (a :: b :: rest)
  | c :: rest => UInt8.ofNat c.toNat :: bytes rest
termination_by cs => cs.length

/-- Decodes each longest stretch of ASCII characters by itself and keeps all others; `run` is the
stretch being read, backwards. -/
def decodeRuns (run : List Char) : List Char → List Char
  | [] => Utf8.decodeLossy (bytes run.reverse)
  | c :: rest =>
    if isAscii c then decodeRuns (c :: run) rest
    else Utf8.decodeLossy (bytes run.reverse) ++ c :: decodeRuns [] rest

def decode (cs : List Char) : List Char := decodeRuns [] cs

end FeatureRun.Text.Percent
