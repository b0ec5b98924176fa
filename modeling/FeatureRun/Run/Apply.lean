import FeatureRun.Catalog.Selection
import FeatureRun.Catalog.Target
import FeatureRun.Feature.Leaves
import FeatureRun.Outcome.Notes
import FeatureRun.Outcome.RollUp

/-!
# Applying a report to a node

What a report says about one selected node: the results of the node and of everything below it, the
results of the nodes above it that the report settles, and the counts over its tests. A feature that
is selected as a whole is judged by the whole entry of its file.
-/
set_option autoImplicit false

namespace FeatureRun.Run

open Report (Entry)

structure Applied where
  /-- The results of the node and of those below it. -/
  picked : Results
  /-- The results of nodes above it that passed or failed. -/
  rolled : List Result
  counts : Summary
  notes : List Note

/-- The results that are recorded. -/
def Applied.writes (a : Applied) : List Result := a.picked.values ++ a.rolled

/-- Whether a result is definite enough to replace what was known about a node above. -/
def isSettled (r : Result) : Bool := r.status = .passed || r.status = .failed

/-- The outcomes that a report has for a file. -/
def outcomesFor (report : List Entry) (file : String) : List Outcome :=
  ((Report.entryFor? report file).map Outcome.ofEntry).getD []

/-- The result of a feature by the whole entry of its file. -/
def featureResult (report : List Entry) (file : String) (f : Feature) : Result :=
  if Outcome.fileFailed (some report) file then
    let messages := Outcome.messages (outcomesFor report file)
    let failures :=
      if messages.isEmpty then
        [⟨"Test failed", "Feature failed; see the runner output", f.line⟩]
      else messages
    ⟨file, .failed, failures⟩
  else ⟨file, .passed, []⟩

/-- The results of the listed nodes. -/
def pick (results : Results) (ids : List String) : Results :=
  .ofList (ids.filterMap fun id => (results.get? id).map fun r => (id, r))

/-- The results of a node and those below it; a feature gets that of its whole file. -/
def pickedBy (report : List Entry) (ref : NodeRef) (f : Feature) (results : Results)
    (below : List String) : Results :=
  let picked := pick results below
  match ref with
  | .feature file => picked.insert file (featureResult report file f)
  | _ => picked

/-- What applying a report to a node of a file notes. -/
def applyNotes (report : List Entry) (root : Path) (ref : NodeRef) (f : Feature) : List Note :=
  let file := ref.file
  Report.entryNotes file report ++
    (match Report.entryFor? report file with
      | some e => Outcome.entryNotes e
      | none => [⟨.warning, "No report entry for " ++ Catalog.relativePath root file⟩]) ++
    Outcome.matchedNotes f (outcomesFor report file) ++
    match ref with
    | .feature _ => Outcome.fileFailedNotes (some report) file
    | _ => []

/-- What a report says about a node; nothing, if the catalog does not have its file. -/
def applyTo (c : Catalog) (root : Path) (report : List Entry) (id : String) :
    Catalog.Lookup (Option Applied) :=
  match NodeRef.read id with
  | .error e => .error e
  | .ok ref =>
    match c.get? ref.file, c.descendants id, c.ancestors id with
    | none, _, _ => .ok none
    | some _, .error e, _ => .error e
    | some _, .ok _, .error e => .error e
    | some f, .ok below, .ok above =>
      let results := RollUp.ofOutcomes ref.file f (outcomesFor report ref.file)
      .ok (some
        { picked := pickedBy report ref f results below
          rolled := (above.filterMap results.get?).filter isSettled
          counts := f.summarize ref.file results (some below)
          notes := applyNotes report root ref f })

end FeatureRun.Run
