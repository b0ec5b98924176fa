/-!
# UTF-8

Text as bytes and back. `decode` refuses the first ill-formed place and says where it lies, how
long it is and what is wrong there; `decodeLossy` puts one replacement character in the place of
each. An ill-formed place is the longest start of a character that cannot be completed, so the byte
that breaks the character off is looked at again.
-/
set_option autoImplicit false

namespace FeatureRun.Text.Utf8

/-- Why bytes are not UTF-8. -/
inductive Reason where
  /-- No character starts with this byte. -/
  | invalidStart
  /-- The character is broken off by a byte that cannot continue it. -/
  | invalidContinuation
  /-- The bytes end within a character. -/
  | truncated
  deriving DecidableEq, Repr

def Reason.message : Reason → String
  | .invalidStart => "invalid start byte"
  | .invalidContinuation => "invalid continuation byte"
  | .truncated => "unexpected end of data"

/-- An ill-formed place: `length` bytes from `position` on, the first of which is `byte`. -/
structure Fault where
  position : Nat
  length : Nat
  byte : UInt8
  reason : Reason
  deriving DecidableEq, Repr

private def hexDigit (n : Nat) : Char := Nat.digitChar (n % 16)

/-- A byte as two hexadecimal digits. -/
def hexByte (b : UInt8) : String :=
  String.ofList [hexDigit (b.toNat / 16), hexDigit (b.toNat % 16)]

/-- One byte is named by its value, several by their positions only. -/
def Fault.message (f : Fault) : String :=
  let place :=
    if f.length ≤ 1 then
      "byte 0x" ++ hexByte f.byte ++ " in position " ++ toString f.position
    else
      "bytes in position " ++ toString f.position ++ "-" ++ toString (f.position + f.length - 1)
  "'utf-8' codec can't decode " ++ place ++ ": " ++ f.reason.message

/-- What a first byte of several announces: how many bytes follow, between which bounds the next
one lies, and the bits it contributes. -/
structure Lead where
  tails : Nat
  low : Nat
  high : Nat
  bits : Nat
  deriving DecidableEq, Repr

/-- Overlong forms, surrogates and code points past the last one are ruled out by the bounds on
the second byte. -/
def lead? (b : Nat) : Option Lead :=
  if 0xC2 ≤ b ∧ b ≤ 0xDF then some ⟨1, 0x80, 0xBF, b - 0xC0⟩
  else if b = 0xE0 then some ⟨2, 0xA0, 0xBF, 0⟩
  else if b = 0xED then some ⟨2, 0x80, 0x9F, 0xD⟩
  else if 0xE1 ≤ b ∧ b ≤ 0xEF then some ⟨2, 0x80, 0xBF, b - 0xE0⟩
  else if b = 0xF0 then some ⟨3, 0x90, 0xBF, 0⟩
  else if 0xF1 ≤ b ∧ b ≤ 0xF3 then some ⟨3, 0x80, 0xBF, b - 0xF0⟩
  else if b = 0xF4 then some ⟨3, 0x80, 0x8F, 4⟩
  else none

/-- The rest of a character with `tails` bytes to come, the next one between `low` and `high`, from
the bits read so far. Also says how many bytes were taken. -/
def follow (tails low high bits : Nat) (bytes : List UInt8) : Nat × Except Reason Char :=
  match tails, bytes with
  | 0, _ => (0, .ok (Char.ofNat bits))
  | _ + 1, [] => (0, .error .truncated)
  | n + 1, b :: rest =>
    if low ≤ b.toNat ∧ b.toNat ≤ high then
      let (k, r) := follow n 0x80 0xBF (bits * 64 + (b.toNat - 0x80)) rest
      (k + 1, r)
    else (0, .error .invalidContinuation)

/-- The character that starts with `b`, or what is wrong there, and how many of the following bytes
belong to it. -/
def first (b : UInt8) (rest : List UInt8) : Nat × Except Reason Char :=
  if b.toNat < 0x80 then (0, .ok (Char.ofNat b.toNat))
  else
    match lead? b.toNat with
    | none => (0, .error .invalidStart)
    | some l => follow l.tails l.low l.high l.bits rest

/-- The characters from position `at` on, up to the first fault. -/
def decodeFrom (position : Nat) : List UInt8 → Except Fault (List Char)
  | [] => .ok []
  | b :: rest =>
    match first b rest with
    | (k, .error reason) => .error ⟨position, k + 1, b, reason⟩
    | (k, .ok c) => (decodeFrom (position + k + 1) (rest.drop k)).map (c :: ·)
termination_by bytes => bytes.length
decreasing_by simp only [List.length_drop, List.length_cons]; omega

def decode (bytes : List UInt8) : Except Fault String :=
  (decodeFrom 0 bytes).map String.ofList

/-- The characters of the bytes, with U+FFFD for every ill-formed place. -/
def decodeLossy : List UInt8 → List Char
  | [] => []
  | b :: rest =>
    match first b rest with
    | (k, .error _) => '\uFFFD' :: decodeLossy (rest.drop k)
    | (k, .ok c) => c :: decodeLossy (rest.drop k)
termination_by bytes => bytes.length
decreasing_by all_goals simp only [List.length_drop, List.length_cons]; omega

def encode (s : String) : List UInt8 := s.toList.flatMap String.utf8EncodeChar

end FeatureRun.Text.Utf8
