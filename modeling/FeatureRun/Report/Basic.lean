/-!
# Run reports

A report has an entry for every feature file that was run. Its elements are the scenarios, one for
each row of an outline, and the backgrounds that ran before them.
-/
set_option autoImplicit false

namespace FeatureRun.Report

/-- A hook that ran before or after a scenario. A hook without a status never counts as failed. -/
structure Hook where
  status : Option String
  error : Option String
  location : Option String
  deriving DecidableEq, Repr

structure Step where
  name : String
  keyword : String
  line : Option Int
  status : Option String
  error : Option String
  deriving DecidableEq, Repr

structure Element where
  kind : String
  name : String
  line : Option Int
  before : List Hook
  after : List Hook
  steps : List Step
  deriving DecidableEq, Repr

def Element.isBackground (e : Element) : Bool := e.kind = "background"

/-- What a report says about one file, which it names by a path or an address. -/
structure Entry where
  uri : String
  elements : List Element
  deriving DecidableEq, Repr

/-- The elements that are scenarios. -/
def Entry.scenarios (e : Entry) : List Element := e.elements.filter fun x => !x.isBackground

end FeatureRun.Report
