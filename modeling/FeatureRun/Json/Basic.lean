import FeatureRun.Decimal.Scientific

/-!
# JSON values

Whole numbers are kept apart from all other numbers, and the fields of an object stand in the order
in which they were written.
-/
set_option autoImplicit false

namespace FeatureRun

/-- A number that is not written as a whole number. -/
inductive Json.Real where
  | finite (number : Decimal.Scientific)
  | infinite (negative : Bool)
  | nan
  deriving DecidableEq, Repr

inductive Json where
  | null
  | bool (value : Bool)
  | int (value : Int)
  | real (value : Json.Real)
  | str (value : String)
  | arr (items : List Json)
  | obj (fields : List (String × Json))
  deriving Repr, Inhabited

namespace Json

/-- The value of a field; of several fields of one name the last one counts. -/
def field? (name : String) : Json → Option Json
  | .obj fields => (fields.reverse.find? fun f => f.1 == name).map Prod.snd
  | _ => none

def string? : Json → Option String
  | .str s => some s
  | _ => none

def int? : Json → Option Int
  | .int n => some n
  | _ => none

/-- The items of an array; any other value has none. -/
def items : Json → List Json
  | .arr vs => vs
  | _ => []

end Json
end FeatureRun
