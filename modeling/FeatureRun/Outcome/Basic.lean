import FeatureRun.Report.Basic
import FeatureRun.Report.Place
import FeatureRun.Result
import FeatureRun.Text.Blank

/-!
# Outcomes of scenarios

What became of a scenario, read off its hooks and steps in this order: the first failing hook before
it, the lack of any step, the first step that neither passed nor was skipped, all steps being
skipped, and the first failing hook after it.
-/
set_option autoImplicit false

namespace FeatureRun

structure Outcome where
  name : String
  line : Option Int
  passed : Bool
  failure : Option Failure
  deriving DecidableEq, Repr

namespace Outcome

open Report

def hookFailed (h : Hook) : Bool := h.status.isSome && h.status ≠ some "passed"

/-- A text, or another one if it is absent or empty. -/
def orElse (s : Option String) (other : String) : String := (s.filter (· ≠ "")).getD other

def hookFailure (label : String) (line : Int) (h : Hook) : Failure :=
  let location := orElse h.location "Unknown location"
  let error := orElse h.error ("Hook failed with status: " ++ h.status.getD "None")
  ⟨label, "Hook Location: " ++ location ++ "\n\n" ++ error, line⟩

/-- A line, unless it is absent or zero. -/
def lineOr (line : Option Int) (other : Int) : Int := (line.filter (· ≠ 0)).getD other

def stepDone (s : Step) : Bool := s.status = some "passed" || s.status = some "skipped"

def stepFailure (line : Int) (s : Step) : Failure :=
  let name := if s.name = "" then "Unknown step" else s.name
  let message :=
    orElse s.error
      (match s.status.filter (· ≠ "") with
      | some word => "Step " ++ word
      | none => "Step has no result")
  ⟨Text.trimmed (Text.trimmed s.keyword ++ " " ++ name), message, lineOr s.line line⟩

def setupError (line : Int) : Failure :=
  ⟨"Scenario Setup Error",
    "All steps were skipped. Check for errors in @Before hooks or step definitions.", line⟩

def emptyScenario (line : Int) : Failure := ⟨"Empty Scenario", "Scenario has no steps", line⟩

/-- What is wrong with the steps of a scenario on a line. -/
def stepsFailure (line : Int) (steps : List Step) : Option Failure :=
  if steps.isEmpty then some (emptyScenario line)
  else
    match steps.find? fun s => !stepDone s with
    | some s => some (stepFailure line s)
    | none =>
      if steps.all fun s => s.status = some "skipped" then some (setupError line) else none

/-- What is wrong with a scenario. -/
def failureOf (e : Element) : Option Failure :=
  let line := e.line.getD 0
  ((e.before.find? hookFailed).map (hookFailure "Before Hook Failed" line))
    <|> stepsFailure line e.steps
    <|> ((e.after.find? hookFailed).map (hookFailure "After Hook Failed" line))

/-- The outcome of a scenario. -/
def ofElement (e : Element) : Outcome :=
  let failure := failureOf e
  ⟨orElse (some e.name) "Unnamed scenario", e.line, failure.isNone, failure⟩

/-- The outcomes of the scenarios of an entry, in report order. -/
def ofEntry (e : Entry) : List Outcome := e.scenarios.map ofElement

/-- Some scenario of the entry did not pass. -/
def anyFailed (e : Entry) : Bool := e.scenarios.any fun x => !(ofElement x).passed

/-- The verdict on a whole file: a report that never became valid counts as failed, a report without
the file as passed. -/
def fileFailed (report : Option (List Entry)) (target : String) : Bool :=
  match report with
  | none => true
  | some entries =>
    match entryFor? entries target with
    | none => false
    | some e => anyFailed e

def lineText (line : Option Int) : String := (line.map toString).getD "None"

/-- A failure with the scenario it belongs to. -/
def message? (o : Outcome) : Option Failure :=
  if o.passed then none
  else
    o.failure.map fun f =>
      { f with
        message :=
          "Scenario: " ++ o.name ++ " (line " ++ lineText o.line ++ ")\n\n" ++ f.label ++ "\n\n" ++
            f.message }

/-- The messages about the outcomes that failed, in order. -/
def messages (os : List Outcome) : List Failure := os.filterMap message?

end Outcome
end FeatureRun
