import FeatureRun.Outcome.Basic
import FeatureRun.Feature.Basic
import FeatureRun.OrderedMap

/-!
# Matching outcomes with the tree

An outcome belongs to the scenario or row on its line. If several stand there, it goes to the first
one whose scenario has the outcome's name, or else to the first one. Scenarios and rows are told
apart by their position in the tree, not by their content, since two of them may be equal.
-/
set_option autoImplicit false

namespace FeatureRun

/-- A position in the tree: the scenario in document order, and the row within it if the position is
that of a row. -/
structure Place where
  scenario : Nat
  row : Option Nat
  deriving DecidableEq, Repr

/-- A scenario or a row of a scenario, with its position. -/
structure Site where
  place : Place
  scenario : Scenario
  row : Option Row
  deriving DecidableEq, Repr

def Site.line (s : Site) : Int :=
  match s.row with
  | none => s.scenario.line
  | some r => r.line

/-- A scenario, followed by its rows. -/
def Scenario.sites (s : Scenario) (index : Nat) : List Site :=
  ⟨⟨index, none⟩, s, none⟩ :: s.rows.mapIdx fun j r => ⟨⟨index, some j⟩, s, some r⟩

/-- All scenarios and rows in document order. -/
def Feature.sites (f : Feature) : List Site :=
  (f.scenarios.mapIdx fun i s => s.sites i).flatten

/-- What stands on each line, in document order. -/
def Feature.byLine (f : Feature) : OrderedMap Int (List Site) :=
  .groupByKey Site.line f.sites

/-- An outcome and where it belongs. -/
structure Match where
  site : Site
  outcome : Outcome
  deriving DecidableEq, Repr

namespace Outcome

/-- Where an outcome belongs. -/
def site? (byLine : OrderedMap Int (List Site)) (o : Outcome) : Option Site :=
  let here := (o.line.bind byLine.get?).getD []
  (here.find? fun s => s.scenario.name = o.name) <|> here.head?

/-- The outcomes that belong somewhere, in order. -/
def matched (f : Feature) (os : List Outcome) : List Match :=
  let byLine := f.byLine
  os.filterMap fun o => (o.site? byLine).map fun s => ⟨s, o⟩

end Outcome
end FeatureRun
