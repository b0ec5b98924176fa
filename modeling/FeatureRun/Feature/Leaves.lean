import FeatureRun.Feature.Basic
import FeatureRun.NodeId
import FeatureRun.Result

/-!
# The tests of a feature

The leaves of the tree that a run reports on: the rows of an outline that has rows, and every other
scenario by itself. `summarize` counts their statuses.
-/
set_option autoImplicit false

namespace FeatureRun.Feature

def scenarioLeaves (file : String) (s : Scenario) : List String :=
  if s.rows.isEmpty then [scenarioId file s.line]
  else s.rows.map fun row => rowId file s.line row.line

/-- The ids of the leaves in document order; `file` is the id of the feature's file. -/
def leaves (file : String) (f : Feature) : List String :=
  f.scenarios.flatMap (scenarioLeaves file)

def countTests (f : Feature) : Nat := (f.leaves "").length

/-- Counts one test. -/
def countStatus (s : Summary) (status : Status) : Summary :=
  match status with
  | .passed => { s with passed := s.passed + 1 }
  | .failed => { s with failed := s.failed + 1 }
  | _ => { s with unmatched := s.unmatched + 1 }

def countLeaves (results : Results) (ids : List String) : Summary :=
  ids.foldl (fun s id => countStatus s (((results.get? id).map Result.status).getD .unmatched))
    { Summary.empty with total := ids.length }

/-- The counts over the leaves, or over those that are among the ids `within`. -/
def summarize (file : String) (f : Feature) (results : Results) (within : Option (List String)) :
    Summary :=
  let ids := f.leaves file
  countLeaves results
    (match within with
    | none => ids
    | some allowed => ids.filter allowed.contains)

end FeatureRun.Feature
