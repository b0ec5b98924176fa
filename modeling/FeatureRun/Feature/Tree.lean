import FeatureRun.Feature.Basic
import FeatureRun.NodeId
import FeatureRun.Result

/-!
# The tree of a feature as text

One line for every node, indented by how deep it lies. With results each line starts with the marker
of its node's status, and a scenario with a failure gets a further line behind its rows.
-/
set_option autoImplicit false

namespace FeatureRun

/-- The sign for a status; a status without a meaning has that of a node without a result. -/
def Status.marker : Status → String
  | .passed => "✓"
  | .failed => "✗"
  | .mixed => "◐"
  | .unmatched => "·"
  | .other _ => "·"

namespace Feature

/-- What stands in front of the line of a node. -/
def marker (results : Option Results) (id : String) : String :=
  match results with
  | none => ""
  | some rs => (((rs.get? id).map Result.status).getD .unmatched).marker ++ " "

def lineSuffix (line : Int) : String := " (line " ++ toString line ++ ")"

def rowLine (results : Option Results) (file : String) (s : Scenario) (indent : String)
    (row : Row) : String :=
  indent ++ "  " ++ marker results (rowId file s.line row.line) ++ "Example: " ++ row.text ++
    lineSuffix row.line

def scenarioLine (results : Option Results) (file : String) (s : Scenario) (indent : String) :
    String :=
  let kind := if s.outline then "Scenario Outline" else "Scenario"
  indent ++ marker results (scenarioId file s.line) ++ kind ++ ": " ++ s.name ++ lineSuffix s.line

/-- The line about the first failure of a scenario. -/
def failureLines (results : Option Results) (file : String) (s : Scenario) (indent : String) :
    List String :=
  match (results.bind fun rs => rs.get? (scenarioId file s.line)).bind Result.failure? with
  | some f => [indent ++ "    ↳ " ++ f.label ++ lineSuffix f.line]
  | none => []

def scenarioLines (results : Option Results) (file : String) (indent : String) (s : Scenario) :
    List String :=
  scenarioLine results file s indent :: s.rows.map (rowLine results file s indent) ++
    failureLines results file s indent

def childLines (results : Option Results) (file : String) : Child → List String
  | .scenario s => scenarioLines results file "  " s
  | .rule r =>
    ("  " ++ marker results (ruleId file r.line) ++ "Rule: " ++ r.name ++ lineSuffix r.line) ::
      r.scenarios.flatMap (scenarioLines results file "    ")

/-- The lines of the tree; `file` is the id of the feature's file. -/
def treeLines (results : Option Results) (file : String) (f : Feature) : List String :=
  (marker results file ++ "Feature: " ++ f.name ++ lineSuffix f.line) ::
    f.children.flatMap (childLines results file)

end Feature
end FeatureRun
