import FeatureRun.Report.Stage
import FeatureRun.Run.Apply
import FeatureRun.Runner.Basic
import FeatureRun.Workspace.Opening

/-!
# Runs

Running the selected nodes and mapping the report onto them, or mapping a report that exists. A run
is entered into the store before the runner starts. A runner that fails, or that leaves no report in
time, makes every selected node fail. The report of a run is taken away once it has been waited for.
-/
set_option autoImplicit false

namespace FeatureRun

open Report (Entry Stage)

/-- How a run ended, and what it found out. -/
structure RunResult where
  success : Bool
  message : String
  summary : Summary
  results : Results

/-- A runner as seen from outside. -/
inductive Runner where
  /-- The program that the settings name, by how it ends when it is started. -/
  | program (ending : Runner.Ending)
  /-- Any runner, by what it writes as its report, if anything, what happens to the report in the
  naps after that, and its exit code or its trouble. -/
  | scripted (report : Option Bytes) (later : List Stage) (result : Except Runner.Fault Int)

namespace Run

open Workspace

/-- The selected nodes, or all features if there is no selection. -/
def selection (ids : Option (List String)) : Action (List String) := do
  Action.ofExcept .selection ((← get).catalog.select ids)

/-- Keeps results in the store. -/
def record (run : Option Int) (rs : List Result) : Action Unit := do
  let stamp := (← get).stamp
  let _ ← Action.onStore fun s => s.record run stamp rs

/-- Keeps results in the store, up to the first with a text that cannot be stored. -/
def recordEncoded (run : Option Int) (rs : List Result) : Action Unit := do
  record run (rs.takeWhile fun r => ((Store.textsOf r).findSome? Text.encodeFault?).isNone)
  Action.ensureEncoded (rs.flatMap Store.textsOf)

def startRun (targets : List String) : Action Int := do
  Action.ensureEncoded [Store.targetsText targets]
  let stamp := (← get).stamp
  Action.onStore fun s =>
    match s.startRun targets stamp with
    | .ok (id, s) => (.ok id, s)
    | .error e => (.error e, s)

def finishRun (run : Int) (counts : Summary) (status : Option RunStatus) : Action Unit := do
  let stamp := (← get).stamp
  Action.onStore fun s =>
    match s.finishRun run counts status stamp with
    | .ok s => (.ok (), s)
    | .error e => (.error e, s)

/-- Applies a report to nodes one after another, and keeps what it says about each. -/
def applyAllWith (keep : List Result → Action Unit) (report : List Entry) (results : Results)
    (counts : Summary) : List String → Action (Results × Summary)
  | [] => pure (results, counts)
  | id :: ids => do
    let w ← get
    match ← Action.ofExcept .id (applyTo w.catalog w.root report id) with
    | none => applyAllWith keep report results counts ids
    | some a =>
      Action.note a.notes
      keep a.writes
      applyAllWith keep report (results.insertAll a.picked.entries) (counts + a.counts) ids

/-- Applies a report to the selected nodes, or with `cancelAfter` only to so many of them. -/
def applyReportWith (keep : List Result → Action Unit) (report : List Entry)
    (ids : Option (List String)) (cancelAfter : Option Nat) : Action (Results × Summary) := do
  let selected ← selection ids
  let count := (cancelAfter.getD selected.length).min selected.length
  let found ← applyAllWith keep report .empty .empty (selected.take count)
  if count < selected.length then
    Action.note [⟨.info, "Reconciliation cancelled, " ++ toString (selected.length - count) ++
      " node(s) left"⟩]
  return found

/-- Applies a report with texts that can all be stored, so that none need be checked. -/
def applyReport (report : List Entry) (ids : Option (List String)) (cancelAfter : Option Nat)
    (run : Option Int) : Action (Results × Summary) :=
  applyReportWith (record run) report ids cancelAfter

/-- Ends a run that has a report. -/
def finish (run : Int) (found : Results × Summary) : Action RunResult := do
  let (results, summary) := found
  let failed := results.values.any fun r => r.status = .failed
  finishRun run summary (if failed then some .failed else none)
  Action.display fun b =>
    if failed then b.failed (if summary.failed = 0 then none else some summary.failed)
    else b.passed
  return ⟨!failed, summary.describe, summary, results⟩

/-- Ends a run without a report: every selected node fails for the same reason. -/
def failAll (run : Int) (selected : List String) (failure : Failure) : Action RunResult := do
  let results : Results := .ofList (selected.map fun id => (id, ⟨id, .failed, [failure]⟩))
  recordEncoded (some run) results.values
  let count : Int := selected.length
  let summary : Summary := ⟨count, 0, count, 0⟩
  finishRun run summary (some .error)
  Action.display fun b => b.failed none
  return ⟨false, failure.label ++ ": " ++ failure.message, summary, results⟩

/-- The place for the report of a run; its directory is made. -/
def reportPath : Action Path := do
  let w ← get
  let dir := w.root.join (Path.ofString w.settings.reportDir)
  makeDirs dir
  return dir.child (".cucumber-result-" ++ toString w.millis ++ ".json")

/-- Why no system starts a program with a word among its arguments. -/
def wordFault? (word : String) : Option Fault :=
  match Text.systemFault? word with
  | some f => some (.unencodable f)
  | none => if word.toList.contains '\x00' then some (.file ⟨.nul, word⟩) else none

/-- The program that the settings name, started on targets. -/
def startProgram (ending : Runner.Ending) (targets : List Target) (report : String) :
    Action (Except Runner.Fault Int) := do
  Action.ensureRoom .glue
  let w ← get
  match Runner.call w.settings w.disk w.root targets report with
  | .error e => return .error e
  | .ok c =>
    Action.note (Runner.callNotes targets c)
    if let some f := c.words.findSome? wordFault? then throw f
    Action.ofExcept .system (c.result ending)

/-- Launches a runner: its exit code or its trouble. -/
def launch (runner : Runner) (targets : List Target) (report : Path) :
    Action (Except Runner.Fault Int) := do
  let shown := report.toString
  modify fun w => { w with launches := ⟨targets, shown⟩ :: w.launches }
  match runner with
  | .program ending => startProgram ending targets shown
  | .scripted content _ result =>
    if let some bytes := content then
      let w ← get
      let disk ← Action.ofExcept .file (w.disk.write report bytes)
      set { w with disk := disk }
    return result

/-- What happens to the report of a runner after it has ended. -/
def laterStages : Runner → List Stage
  | .program _ => []
  | .scripted _ later _ => later

/-- How the wait for a report goes if no nap is refused. -/
def waitFor (report : Path) (later : List Stage) (w : Workspace) : Report.Waited :=
  Report.awaitAt w.surroundings.levels w.disk report w.settings.reportAttempts later

/-- Why the naps of a wait are refused, if it takes any. -/
def refusedNap? (waited : Report.Waited) (w : Workspace) : Option NapFault :=
  if waited.naps = 0 then none else w.surroundings.refusedNap? w.settings.reportDelay

/-- Waits for the report of a runner. A wait ends with its first nap if that is refused. -/
def awaitReport (report : Path) (later : List Stage) : Action (Option (List Entry)) := do
  let w ← get
  let waited := waitFor report later w
  match refusedNap? waited w with
  | some f =>
    Action.note (waited.notes.take 1)
    throw (.nap f)
  | none =>
    set { w with
      disk := Stage.diskAfter w.disk report waited.naps later
      naps := List.replicate waited.naps w.settings.reportDelay ++ w.naps }
    Action.note waited.notes
    Action.ofExcept .excess waited.found

def noReport (code : Int) : Failure :=
  ⟨"No results", "Could not determine outcome: no valid report was produced (exit code " ++
    toString code ++ "). Check the runner output.", 0⟩

/-- What a run is called: by its only node, or by the number of its nodes. -/
def nameOf (selected : List String) : Action String :=
  match selected with
  | [id] => do Action.ofExcept .id ((← get).catalog.label id)
  | _ => pure (toString selected.length ++ " tests")

/-- Maps the report of a runner that has ended onto the selected nodes; the report is taken away. -/
def collect (run : Int) (selected : List String) (cancelAfter : Option Nat) (report : Path)
    (later : List Stage) : Action (Option (Results × Summary)) :=
  Action.endingWith
    (do
      match ← awaitReport report later with
      | none => return none
      | some entries =>
        let keep := recordEncoded (some run)
        return some (← applyReportWith keep entries (some selected) cancelAfter))
    fun w => { w with disk := w.disk.unlink report }

end Run

/-- Runs the selected nodes, or all features, and keeps their results. -/
def Workspace.run (runner : Runner) (ids : Option (List String)) (cancelAfter : Option Nat) :
    Action RunResult := do
  let selected ← Run.selection ids
  if selected.isEmpty then return ⟨true, "Nothing to run", .empty, .empty⟩
  let root := (← get).root
  let targets ← selected.mapM fun id => Action.ofExcept .id (Catalog.targetFor root id)
  let name ← Run.nameOf selected
  Action.display fun b => b.running (some name)
  let run ← Run.startRun selected
  let report ← Run.reportPath
  match ← Run.launch runner targets report with
  | .error e =>
    Action.note [⟨.error, "Runner failed: " ++ e.message⟩]
    Run.failAll run selected ⟨"Run failed", e.message, 0⟩
  | .ok code =>
    match ← Run.collect run selected cancelAfter report (Run.laterStages runner) with
    | none => Run.failAll run selected (Run.noReport code)
    | some found => Run.finish run found

/-- The report in the file that a path names. -/
def Run.readReport (path : String) (w : Workspace) : Except Fault (List Entry) := do
  if let some f := Text.systemFault? (Path.ofString path).toString then throw (.unencodable f)
  let text ← (w.readText path).mapError .text
  (Report.read w.surroundings.levels text).mapError .ofReport

/-- Maps the report in a file onto the selected nodes, or all features, without running anything. -/
def Workspace.importReport (path : String) (ids : Option (List String)) : Action RunResult := do
  let report ← Action.ofExcept id (Run.readReport path (← get))
  let selected ← Run.selection ids
  let run ← Run.startRun selected
  let found ← Run.applyReportWith (Run.recordEncoded (some run)) report (some selected) none
  Run.finish run found

end FeatureRun
