import FeatureRun.Console.Commands

/-!
# Tools

The same operations for callers that want JSON: what there is to run, the results of a run or of a
report, and what is known about every node. A tool answers with a JSON object; if its operation
fails, that object has an `error` field instead.
-/
set_option autoImplicit false

namespace FeatureRun.Tools

def summaryFields (s : Summary) : List (String × Json) :=
  [("total", .int s.total), ("passed", .int s.passed), ("failed", .int s.failed),
    ("unmatched", .int s.unmatched)]

def failuresJson (fs : List Failure) : Json := .arr (fs.map Failure.toJson)

def resultFields (r : Result) : List (String × Json) :=
  [("status", .str r.status.word), ("failures", failuresJson r.failures)]

def runFields (r : RunResult) : List (String × Json) :=
  [("success", .bool r.success), ("message", .str r.message),
    ("summary", .obj (summaryFields r.summary)),
    ("results", .obj (r.results.entries.map fun (id, res) => (id, .obj (resultFields res))))]

def entryJson (r : RunEntry) : Json :=
  .obj [("id", .int r.id), ("targets", .arr (r.targets.map .str)), ("status", .str r.status.word),
    ("total", .int r.counts.total), ("passed", .int r.counts.passed),
    ("failed", .int r.counts.failed), ("unmatched", .int r.counts.unmatched),
    ("started_at", .str r.started), ("finished_at", (r.finished.map .str).getD .null)]

/-- The status of the session, as the last field of an answer. -/
def statusField (w : Workspace) : String × Json := ("status", .str w.status.text)

/-- The answer to a failed operation. -/
def errorText (e : Fault) : String := Json.line (.obj [("error", .str e.message)])

/-- Opens a session for a tool. -/
def withSession (m : Machine) (tool : Workspace → Except Fault String × Workspace) :
    Except Fault String × Machine :=
  match (Workspace.openSession).run.run (.start m) with
  | (.error e, w) => (.ok (errorText e), w.toMachine)
  | (.ok (), w) =>
    let (answer, w) := tool w
    (answer, w.toMachine)

/-- Answers with the error if there is one. -/
def answer : Except Fault Json → Except Fault String
  | .ok v => .ok (Json.pretty v)
  | .error e => .ok (errorText e)

/-! ## What there is to run -/

def discoveredFeature (w : Workspace) (f : Feature) : Except Fault Json :=
  match w.catalog.descendants f.path with
  | .error e => .error (.id e)
  | .ok ids =>
    .ok (.obj [("path", .str (Catalog.relativePath w.root f.path)), ("name", .str f.name),
      ("nodes", .arr (ids.map .str))])

def discovered (w : Workspace) : Except Fault Json :=
  (w.catalog.sorted.mapM (discoveredFeature w)).map fun features =>
    .obj [("features", .arr features), ("tests", .int w.catalog.countTests), statusField w]

/-- Lists every node. A file whose name cannot be part of node ids is a fault that is passed on. -/
def discover (m : Machine) : Except Fault String × Machine :=
  withSession m fun w => ((discovered w).map Json.pretty, w)

/-! ## Results -/

def targetIds (w : Workspace) (targets : List String) : Except Fault (Option (List String)) :=
  (Console.readTargets w targets).mapError .target

def runTargets (runner : Runner) (targets : List String) (w : Workspace) :
    Except Fault String × Workspace :=
  match targetIds w targets with
  | .error e => (answer (.error e), w)
  | .ok ids =>
    let (r, w) := (Workspace.run runner ids none).run.run w
    (answer (r.map fun r => .obj (runFields r ++ [statusField w])), w)

def run (runner : Runner) (targets : List String) (m : Machine) : Except Fault String × Machine :=
  withSession m (runTargets runner targets)

def importTargets (report : String) (targets : List String) (w : Workspace) :
    Except Fault String × Workspace :=
  match targetIds w targets with
  | .error e => (answer (.error e), w)
  | .ok ids =>
    let (r, w) := (Workspace.importReport report ids).run.run w
    (answer (r.map fun r => .obj (runFields r)), w)

def results (report : String) (targets : List String) (m : Machine) :
    Except Fault String × Machine :=
  withSession m (importTargets report targets)

/-! ## What is known -/

def nodeJson (w : Workspace) (results : Results) (id : String) : Except Fault Json :=
  match w.catalog.label id with
  | .error e => .error (.id e)
  | .ok label =>
    let r := (results.get? id).getD ⟨id, .unmatched, []⟩
    .ok (.obj ([("id", .str id), ("label", .str label)] ++ resultFields r))

def featureJson (w : Workspace) (results : Results) (f : Feature) : Except Fault Json := do
  let ids ← (w.catalog.descendants f.path).mapError .id
  let nodes ← ids.mapM (nodeJson w results)
  return .obj [("path", .str (Catalog.relativePath w.root f.path)),
    ("summary", .obj (summaryFields (f.summarize f.path results none))), ("nodes", .arr nodes)]

def known (w : Workspace) : Except Fault Json := do
  let results ← w.readStored
  let features ← w.catalog.sorted.mapM (featureJson w results)
  return .obj [("features", .arr features),
    ("history", .arr ((w.store.latest Console.shownRuns).map entryJson)), statusField w]

def status (m : Machine) : Except Fault String × Machine :=
  withSession m fun w => (answer (known w), w)

end FeatureRun.Tools
