import FeatureRun.Feature.Owner

/-!
# Reading a feature file

One pass over the classified lines. A `Draft` holds what has been read: the title of the feature,
the finished children, the rule and the scenario that are still open, and how far into an example
table the last line was.
-/
set_option autoImplicit false

namespace FeatureRun.Feature

/-- Where a line stands with respect to an example table. -/
inductive Block where
  | outside
  /-- Below an `Examples:` heading, before the table. -/
  | heading
  /-- Within the table. -/
  | rows
  deriving DecidableEq, Repr

structure Draft where
  title : Option (String × Int)
  /-- Finished children, the last one first. -/
  children : List Child
  /-- The open rule with its finished scenarios, the last one first. -/
  rule : Option Rule
  /-- The open scenario with its rows, the last one first. -/
  scenario : Option Scenario
  block : Block
  deriving DecidableEq, Repr

namespace Draft

def start : Draft := ⟨none, [], none, none, .outside⟩

/-- Finishes the open scenario: it goes to the open rule, or else to the feature. -/
def closeScenario (d : Draft) : Draft :=
  match d.scenario with
  | none => d
  | some s =>
    let s := { s with rows := s.rows.reverse }
    match d.rule with
    | some r => { d with scenario := none, rule := some { r with scenarios := s :: r.scenarios } }
    | none => { d with scenario := none, children := .scenario s :: d.children }

/-- Finishes the open scenario and the open rule. -/
def closeRule (d : Draft) : Draft :=
  let d := d.closeScenario
  match d.rule with
  | none => d
  | some r =>
    { d with
      rule := none
      children := .rule { r with scenarios := r.scenarios.reverse } :: d.children }

def openScenario (d : Draft) (name : String) (number : Int) (outline : Bool) : Draft :=
  { d.closeScenario with scenario := some ⟨name, number, outline, []⟩, block := .outside }

/-- A table row at `index`: it is an example of the open outline if it stands in an example table
and that outline owns it. -/
def addRow (lines : List Line) (index : Nat) (text : String) (d : Draft) : Draft :=
  if d.block = .outside then d
  else
    match d.scenario with
    | some s =>
      if s.outline && (owner? lines index).map Int.ofNat = some s.line then
        { d with
          block := .rows
          scenario := some { s with rows := ⟨(index : Int) + 1, text⟩ :: s.rows } }
      else { d with block := .rows }
    | none => { d with block := .rows }

/-- Takes in the line at `index` of `lines`. A line that is no row ends the table it comes after. -/
def step (lines : List Line) (d : Draft) (index : Nat) (line : Line) : Draft :=
  let number : Int := (index : Int) + 1
  let d := if d.block = .rows && !line.isRow then { d with block := .outside } else d
  match line with
  | .feature name => { d with title := d.title <|> some (name, number) }
  | .rule name => { d.closeRule with rule := some ⟨name, number, []⟩, block := .outside }
  | .outline name => d.openScenario name number true
  | .scenario name => d.openScenario name number false
  | .examples => { d with block := .heading }
  | .row text => d.addRow lines index text
  | .other => d

/-- Takes in the lines from `index` on. -/
def steps (lines : List Line) (d : Draft) (index : Nat) : List Line → Draft
  | [] => d
  | line :: rest => steps lines (d.step lines index line) (index + 1) rest

/-- The feature that has been read, unless no line gave it a title. -/
def finish (d : Draft) (path : String) : Option Feature :=
  d.title.map fun (name, number) => ⟨name, number, path, d.closeRule.children.reverse⟩

end Draft

/-- The feature that classified lines describe. -/
def ofLines (lines : List Line) (path : String) : Option Feature :=
  (Draft.start.steps lines 0 lines).finish path

/-- The feature that a text describes; none if no line starts with `Feature:`. -/
def read (text path : String) : Option Feature := ofLines (linesOf text) path

end FeatureRun.Feature
