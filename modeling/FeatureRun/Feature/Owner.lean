import FeatureRun.Feature.Line

/-!
# Which outline a table row belongs to

A row below an `Examples:` heading is a data row if it comes after the first row below that heading,
which is the header of the table. It belongs to the nearest outline above the heading.
-/
set_option autoImplicit false

namespace FeatureRun.Feature

/-- The position of the last element with a property. -/
def lastIdx? {α : Type} (p : α → Bool) : List α → Option Nat
  | [] => none
  | a :: l =>
    match lastIdx? p l with
    | some i => some (i + 1)
    | none => if p a then some 0 else none

/-- The line (counted from 1) of the outline that owns the line at `index` (counted from 0), if that
line lies behind the header of an example table. The line itself is not looked at. -/
def owner? (lines : List Line) (index : Nat) : Option Nat :=
  match lastIdx? Line.isExamples (lines.take (index + 1)) with
  | none => none
  | some heading =>
    match (lines.drop (heading + 1)).findIdx? Line.isRow with
    | none => none
    | some offset =>
      if index ≤ heading + 1 + offset then none
      else (lastIdx? Line.isOutline (lines.take (heading + 1))).map (· + 1)

/-- There is no line at the position asked for. -/
inductive IndexFault where
  | outOfRange
  | tooLarge
  deriving DecidableEq, Repr

def IndexFault.message : IndexFault → String
  | .outOfRange => "list index out of range"
  | .tooLarge => "cannot fit 'int' into an index-sized integer"

/-- `owner?` at any position: nothing stands before the first line, and there must be a line at the
position otherwise. -/
def ownerAt (lines : List Line) (index : Int) : Except IndexFault (Option Nat) :=
  if index < 0 then .ok none
  else if index < lines.length then .ok (owner? lines index.toNat)
  else if index < 9223372036854775808 then .error .outOfRange
  else .error .tooLarge

end FeatureRun.Feature
