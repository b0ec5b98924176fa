import FeatureRun.Outcome.Match
import FeatureRun.Report.Notes

/-!
# What judging scenarios notes

Every step that is read is noted, then the verdict on its scenario. The verdict on a whole file is
reached by judging its scenarios again, up to the first that failed.
-/
set_option autoImplicit false

namespace FeatureRun.Outcome

open Report

def stepNote (s : Step) : Note :=
  ⟨.trace, "Step \"" ++ s.name ++ "\" at line " ++ lineText s.line ++ ": " ++
    orElse s.status "no result"⟩

/-- Steps are read up to the first that is not done. -/
def stepNotes : List Step → List Note
  | [] => []
  | s :: ss => stepNote s :: if stepDone s then stepNotes ss else []

def verdictNote (o : Outcome) : Note :=
  ⟨.debug, "Scenario \"" ++ o.name ++ "\" at line " ++ lineText o.line ++ ": " ++
    if o.passed then "PASSED" else "FAILED"⟩

/-- The steps of a scenario are not read if a hook before it failed. -/
def elementNotes (e : Element) : List Note :=
  (if e.before.any hookFailed then [] else stepNotes e.steps) ++ [verdictNote (ofElement e)]

def entryNotes (e : Entry) : List Note :=
  e.scenarios.flatMap elementNotes ++
    [⟨.debug, "Reconciled " ++ toString e.scenarios.length ++ " scenario(s) for " ++ e.uri⟩]

/-- Scenarios are judged up to the first that failed. -/
def anyFailedNotes : List Element → List Note
  | [] => []
  | e :: es => elementNotes e ++ if (ofElement e).passed then anyFailedNotes es else []

def fileFailedNotes (report : Option (List Entry)) (target : String) : List Note :=
  match report with
  | none => [⟨.error, "No valid report for " ++ target ++ ", treating it as failed"⟩]
  | some entries =>
    Report.entryNotes target entries ++
      match entryFor? entries target with
      | none =>
        [⟨.warning, "Feature " ++ target ++ " not found in report, assuming passed"⟩]
      | some e => anyFailedNotes e.scenarios

/-- Outcomes that belong nowhere are noted. -/
def matchedNotes (f : Feature) (os : List Outcome) : List Note :=
  let byLine := f.byLine
  (os.filter fun o => (o.site? byLine).isNone).map fun o =>
    ⟨.debug, "No catalog node at line " ++ lineText o.line ++ " for scenario \"" ++ o.name ++
      "\", skipping"⟩

end FeatureRun.Outcome
