import FeatureRun.Feature.Owner

/-!
# What stands around a line of a feature file

The scenario whose block contains a line, found by looking upwards for its header, and the example
row on a line with the outline that owns it. Lines are counted from 1.
-/
set_option autoImplicit false

namespace FeatureRun.Feature

/-- The nearest scenario header in lines given backwards, `number` being that of the first; a rule
or a feature on the way ends the search. -/
def headerAbove? (number : Nat) : List Line → Option Scenario
  | [] => none
  | .outline name :: _ => some ⟨name, number, true, []⟩
  | .scenario name :: _ => some ⟨name, number, false, []⟩
  | .rule _ :: _ => none
  | .feature _ :: _ => none
  | _ :: above => headerAbove? (number - 1) above

/-- The position of a line that exists. -/
def position? (lines : List Line) (number : Int) : Option Nat :=
  if 1 ≤ number ∧ number ≤ lines.length then some (number - 1).toNat else none

/-- The header of the scenario whose block contains a line, without its rows. -/
def scenarioAt? (text : String) (number : Int) : Option Scenario :=
  let lines := linesOf text
  (position? lines number).bind fun i => headerAbove? (i + 1) (lines.take (i + 1)).reverse

/-- The lines of an outline and of its example row, if that row stands on the line. -/
def exampleAt? (text : String) (number : Int) : Option (Int × Int) :=
  let lines := linesOf text
  (position? lines number).bind fun i =>
    match lines[i]? with
    | some (.row _) => (owner? lines i).map fun o => ((o : Int), number)
    | _ => none

end FeatureRun.Feature
