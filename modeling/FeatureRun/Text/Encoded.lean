import FeatureRun.Text.Quoted

/-!
# Texts that can be encoded

A half of a surrogate pair has no place in UTF-8, so a text with one can be neither stored nor
printed. Names that a system gave are an exception: a byte of theirs that is no UTF-8 is kept as a
half of its own, and the system gets the byte back.
-/
set_option autoImplicit false

namespace FeatureRun.Text

def isHalf (c : Char) : Bool := (halfOf? c).isSome

/-- The halves that stand for single bytes. -/
def byteHalves : CodeRange := (0xDC80, 0xDCFF)

def isByteHalf (c : Char) : Bool :=
  (halfOf? c).any fun n => byteHalves.1 ≤ n && n ≤ byteHalves.2

/-- Why a text cannot be encoded: the number and the place of its first half that has no bytes, and
how many halves stand there in a row. -/
structure EncodeFault where
  half : Nat
  position : Nat
  count : Nat
  deriving DecidableEq, Repr

def EncodeFault.message (f : EncodeFault) : String :=
  "'utf-8' codec can't encode character" ++
    (if f.count = 1 then
      " '" ++ String.ofList (escapeCode f.half) ++ "' in position " ++ toString f.position
    else
      "s in position " ++ toString f.position ++ "-" ++ toString (f.position + f.count - 1)) ++
    ": surrogates not allowed"

/-- The first half that has no bytes, `position` being the place of the first character. -/
def encodeFaultFrom (hasBytes : Char → Bool) (position : Nat) : List Char → Option EncodeFault
  | [] => none
  | c :: cs =>
    if isHalf c && !hasBytes c then
      some ⟨(halfOf? c).getD 0, position, ((c :: cs).takeWhile isHalf).length⟩
    else encodeFaultFrom hasBytes (position + 1) cs

/-- Why a text can be neither stored nor printed. -/
def encodeFault? (s : String) : Option EncodeFault := encodeFaultFrom (fun _ => false) 0 s.toList

/-- Why a text cannot be given to the system. -/
def systemFault? (s : String) : Option EncodeFault := encodeFaultFrom isByteHalf 0 s.toList

/-- How many bytes the system gets for a text. -/
def systemSize (s : String) : Nat :=
  s.toList.foldr (fun c n => (if isByteHalf c then 1 else c.utf8Size) + n) 0

example : (encodeFault? (String.ofList ['a', charOrStandIn 0xD800])).map EncodeFault.message =
    some "'utf-8' codec can't encode character '\\ud800' in position 1: surrogates not allowed" := by
  decide

theorem encodeFaultFrom_eq_none_iff {hasBytes : Char → Bool} {cs : List Char} {n : Nat} :
    encodeFaultFrom hasBytes n cs = none ↔ ∀ c ∈ cs, isHalf c = true → hasBytes c = true := by
  induction cs generalizing n with
  | nil => simp [encodeFaultFrom]
  | cons c cs ih =>
    rw [encodeFaultFrom, List.forall_mem_cons, ← @ih (n + 1)]
    cases isHalf c <;> cases hasBytes c <;> simp

/-- A text without halves can be encoded. -/
theorem encodeFault?_eq_none_iff {s : String} :
    encodeFault? s = none ↔ ∀ c ∈ s.toList, isHalf c = false := by
  simp [encodeFault?, encodeFaultFrom_eq_none_iff]

end FeatureRun.Text
