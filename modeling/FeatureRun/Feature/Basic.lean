import FeatureRun.Text.Blank
import FeatureRun.Text.Lines
import FeatureRun.Text.Search

/-!
# Features

The tree of a feature file: a feature holds scenarios and rules, a rule holds scenarios, and an
outline holds the rows of its example tables. Every node carries the line it stands on.
-/
set_option autoImplicit false

namespace FeatureRun

/-- A row of an example table: its line and its trimmed text. -/
structure Row where
  line : Int
  text : String
  deriving DecidableEq, Repr

structure Scenario where
  name : String
  line : Int
  outline : Bool
  rows : List Row
  deriving DecidableEq, Repr

structure Rule where
  name : String
  line : Int
  scenarios : List Scenario
  deriving DecidableEq, Repr

/-- What may stand directly below a feature. -/
inductive Child where
  | scenario (s : Scenario)
  | rule (r : Rule)
  deriving DecidableEq, Repr

structure Feature where
  name : String
  line : Int
  path : String
  children : List Child
  deriving DecidableEq, Repr

/-- The texts between the bars of a row. -/
def Row.cells (row : Row) : List String :=
  let inner := Text.trim row.text.toList
  let inner := if inner.head? = some '|' then inner.tail else inner
  let inner := if inner.getLast? = some '|' then inner.dropLast else inner
  (Text.pieces '|' inner).map fun cell => String.ofList (Text.trim cell)

namespace Child

def line : Child → Int
  | .scenario s => s.line
  | .rule r => r.line

def scenario? : Child → Option Scenario
  | .scenario s => some s
  | .rule _ => none

def rule? : Child → Option Rule
  | .scenario _ => none
  | .rule r => some r

/-- The scenario itself, or the scenarios of the rule. -/
def scenarios : Child → List Scenario
  | .scenario s => [s]
  | .rule r => r.scenarios

end Child

namespace Feature

/-- The scenarios that belong to no rule. -/
def looseScenarios (f : Feature) : List Scenario := f.children.filterMap Child.scenario?

def rules (f : Feature) : List Rule := f.children.filterMap Child.rule?

/-- All scenarios in document order. -/
def scenarios (f : Feature) : List Scenario := f.children.flatMap Child.scenarios

end Feature
end FeatureRun
