import FeatureRun.OrderedMap

/-!
# Results

What is known about a node of the tree after a run: a status and the failures behind it, and the
counts over the tests of a selection.
-/
set_option autoImplicit false

namespace FeatureRun

/-- Why something failed, and the source line to go to; line 0 means that it is unknown. -/
structure Failure where
  label : String
  message : String
  line : Int
  deriving DecidableEq, Repr

inductive Status where
  | passed
  | failed
  | unmatched
  /-- Some of the scenarios below passed and some were not run. -/
  | mixed
  /-- A word that has no meaning here. -/
  | other (word : String)
  deriving DecidableEq, Repr

def Status.word : Status → String
  | .passed => "passed"
  | .failed => "failed"
  | .unmatched => "unmatched"
  | .mixed => "partial"
  | .other w => w

def Status.ofWord (w : String) : Status :=
  if w = "passed" then .passed
  else if w = "failed" then .failed
  else if w = "unmatched" then .unmatched
  else if w = "partial" then .mixed
  else .other w

/-- The result of the node with an id. -/
structure Result where
  id : String
  status : Status
  failures : List Failure
  deriving DecidableEq, Repr

def Result.failure? (r : Result) : Option Failure := r.failures.head?

/-- Results by node id. -/
abbrev Results := OrderedMap String Result

/-- How many tests there are, and what became of them. -/
structure Summary where
  total : Int
  passed : Int
  failed : Int
  unmatched : Int
  deriving DecidableEq, Repr

namespace Summary

def empty : Summary := ⟨0, 0, 0, 0⟩

def success (s : Summary) : Bool := s.failed = 0

def add (a b : Summary) : Summary :=
  ⟨a.total + b.total, a.passed + b.passed, a.failed + b.failed, a.unmatched + b.unmatched⟩

instance : Add Summary := ⟨add⟩

/-- The counts in words. -/
def describe (s : Summary) : String :=
  toString s.passed ++ " passed, " ++ toString s.failed ++ " failed, " ++ toString s.unmatched ++
    " not run"

end Summary
end FeatureRun
