import FeatureRun.Console.Printed
import FeatureRun.Console.Usage
import FeatureRun.Feature.Tree
import FeatureRun.Run.Basic

/-!
# Commands

Setting up a workspace, discovering its features, running them, mapping a report onto them, showing
what is known about them, and forgetting it.
-/
set_option autoImplicit false

namespace FeatureRun.Console

/-- The tree of a feature as one text. -/
def treeText (results : Option Results) (f : Feature) : String :=
  Text.join "\n" (f.treeLines results f.path)

/-! ## init -/

def initialized (file : String) : String :=
  "Initialized cuke-runner workspace:\n  " ++ file ++ "\n\n" ++ asLines
    ["Next steps:",
      "  1. Edit glue_paths if your step definitions are not under src/test/java/**/steps",
      "  2. Run: cuke discover",
      "  3. Run: cuke run"]

/-- Writes the settings file of a new workspace; what to tell the user about it. -/
def initProject (root : Path) (disk : FileTree) : Except FileFault (String × FileTree) :=
  let file := settingsFile root
  let shown := file.toString
  if disk.exists? file then .ok ("Already initialized: " ++ shown ++ " exists", disk)
  else
    match disk.makeDirs (stateDir root) with
    | (.error e, _) => .error e
    | (.ok (), disk) => (disk.write file (Text.Utf8.encode settingsTemplate)).map fun disk =>
      (initialized shown, disk)

def init (m : Machine) : Printed × Machine :=
  match initProject (Path.ofString m.directory) m.disk with
  | .error e => (.escaped (.file e), m)
  | .ok (message, disk) => (.done [message], { m with disk := disk })

/-! ## discover -/

def discovered (w : Workspace) : List String :=
  let features := w.catalog.sorted
  if features.isEmpty then ["No feature files found."]
  else
    (features.flatMap fun f =>
      ["# " ++ Catalog.relativePath w.root f.path, treeText none f, ""]) ++
      ["✓ " ++ toString features.length ++ " feature file(s), " ++
        toString w.catalog.countTests ++ " tests", w.status.text]

def discover (m : Machine) : Printed × Machine :=
  withSession m fun w => (.done (discovered w), w)

/-! ## run and results -/

/-- The file of the node with an id; an id that cannot be read stands for itself. -/
def fileOfId (id : String) : String :=
  match NodeRef.read id with
  | .ok ref => ref.file
  | .error _ => id

/-- Whether an id is that of a scenario or a row. -/
def isTest (id : String) : Bool :=
  match NodeRef.read id with
  | .ok (.scenario ..) => true
  | .ok (.row ..) => true
  | _ => false

def labelOf (c : Catalog) (id : String) : String :=
  match c.label id with
  | .ok label => label
  | .error _ => id

/-- What is printed about a scenario or row that failed. -/
def failureLines (c : Catalog) (r : Result) : List String :=
  if r.status = .failed && isTest r.id then
    match r.failure? with
    | some f =>
      cross (labelOf c r.id ++ ": " ++ f.label ++ " (line " ++ toString f.line ++ ")") ::
        (Text.visualLines f.message).map ("    " ++ ·)
    | none => []
  else []

/-- The trees of the features with results, the failures, and how it all ended. -/
def resultLines (c : Catalog) (r : RunResult) : List String :=
  let touched := r.results.keys.map fileOfId
  ((c.sorted.filter fun f => touched.contains f.path).flatMap fun f =>
    [treeText (some r.results) f, ""]) ++
    r.results.values.flatMap (failureLines c) ++
    [(if r.success then "✓ " else "✗ ") ++ r.message]

/-- The ids of the nodes that typed targets select; without targets there is no selection. -/
def readTargets (w : Workspace) (specs : List String) : Except TargetFault (Option (List String)) :=
  if specs.isEmpty then .ok none
  else (specs.mapM fun s => w.catalog.readTarget w.disk w.root s).map some

def exitCode (success : Bool) : Nat := if success then 0 else 1

/-- A fault that the user is told of if it is of the handled kinds. -/
def reported (handled : Fault.Kind → Bool) (e : Fault) : Printed :=
  if handled e.kind then .refused (cross e.message) else .escaped e

def runTargets (runner : Runner) (specs : List String) (w : Workspace) : Printed × Workspace :=
  match readTargets w specs with
  | .error e => (reported Fault.Kind.isValue (.target e), w)
  | .ok ids =>
    match (Workspace.run runner ids none).run.run w with
    | (.error e, w) => (.escaped e, w)
    | (.ok r, w) =>
      (⟨resultLines w.catalog r ++ [w.status.text], [], .exit (exitCode r.success)⟩, w)

def run (runner : Runner) (specs : List String) (m : Machine) : Printed × Machine :=
  withSession m (runTargets runner specs)

def importTargets (report : String) (specs : List String) (w : Workspace) :
    Printed × Workspace :=
  let handled (k : Fault.Kind) : Bool := k.isValue || k.isSystem
  match readTargets w specs with
  | .error e => (reported handled (.target e), w)
  | .ok ids =>
    match (Workspace.importReport report ids).run.run w with
    | (.error e, w) => (reported handled e, w)
    | (.ok r, w) => (⟨resultLines w.catalog r, [], .exit (exitCode r.success)⟩, w)

def results (report : String) (specs : List String) (m : Machine) : Printed × Machine :=
  withSession m (importTargets report specs)

/-! ## status -/

/-- A word with blanks behind it up to a width. -/
def padded (width : Nat) (word : String) : String :=
  word ++ String.ofList (List.replicate (width - word.length) ' ')

def runLine (r : RunEntry) : String :=
  "  #" ++ toString r.id ++ " " ++ padded 8 r.status.word ++ " " ++ r.counts.describe ++ "  (" ++
    r.started ++ ")"

/-- How many runs the history shows. -/
def shownRuns : Nat := 5

def statusLines (w : Workspace) (results : Results) : List String :=
  let runs := w.store.latest shownRuns
  (w.catalog.sorted.flatMap fun f => [treeText (some results) f, ""]) ++
    (if runs.isEmpty then [] else "Recent runs:" :: runs.map runLine) ++ [w.status.text]

def known (w : Workspace) : Printed :=
  match w.readStored with
  | .error e => .escaped e
  | .ok results => .done (statusLines w results)

def status (m : Machine) : Printed × Machine := withSession m fun w => (known w, w)

/-! ## reset -/

/-- Forgets the results of one feature file, or all results and runs. -/
def reset (path : Option String) (m : Machine) : Printed × Machine :=
  let root := Path.ofString m.directory
  if m.disk.exists? (storeFile root) then
    match path with
    | none => (.done ["Results and run history cleared."], { m with store := m.store.reset })
    | some p =>
      let file := m.fileId (root.join (Path.ofString p)).toString
      match Text.encodeFault? file with
      | some f => (.escaped (.unencodable f), m)
      | none =>
        (.done ["Results cleared for " ++ p ++ "."], { m with store := m.store.forgetFile file })
  else (.done ["Nothing to reset: no results database found."], m)

end FeatureRun.Console
