import FeatureRun.Discovery
import FeatureRun.Watch.Basic
import FeatureRun.Workspace.Basic

/-!
# The feature files of a workspace

Discovering all of them, reading one of them anew, and following a batch of changes. The status bar
shows the number of tests whenever the catalog has been brought up to date as a whole.
-/
set_option autoImplicit false

namespace FeatureRun.Workspace

/-- The text of a file, or why there is none. No file can have an id with a NUL character. -/
def textOf (file : String) : Action (Except TextFault String) := do
  match Catalog.textOf (← get).disk file with
  | .error e => if e.isNul then throw (.text e) else return .error e
  | .ok text => return .ok text

/-- Reads a file anew, with this text or else with that on the disk: the number of its tests. -/
def updateFile (path : String) (text : Option String) : Action Nat := do
  let w ← get
  let file := w.fileId path
  let content ← match text with
    | some t => pure (.ok t)
    | none => textOf file
  Action.note (w.catalog.updateNotes file content)
  let catalog := w.catalog.update file content
  modify fun w => { w with catalog := catalog }
  return catalog.testsIn file

/-- Drops a file; whether the catalog had it. -/
def removeFile (path : String) : Action Bool := do
  let w ← get
  let file := w.fileId path
  set { w with catalog := w.catalog.removeFile file }
  return w.catalog.features.contains file

/-- The ids of the feature files on the disk. -/
def discovered (w : Workspace) : List String :=
  (Discovery.featureFiles w.disk w.root w.settings.excludeDirs).map fun p => w.fileId p.toString

/-- Reads all feature files anew, from an empty catalog: the number of all tests. -/
def refresh : Action Nat := do
  let w ← get
  let files := w.discovered
  let catalog := Catalog.empty.updateAll w.disk files
  Action.note (Discovery.foundNote files.length :: Catalog.empty.updateAllNotes w.disk files)
  modify fun w => { w with catalog := catalog }
  let total := files.foldr (fun file n => catalog.testsIn file + n) 0
  Action.display fun b => b.setTests total
  return total

def scene (w : Workspace) : Watch.Scene :=
  ⟨w.disk, w.directory, w.root, w.settings.excludeDirs, w.clock⟩

/-- One round of watching: the files that are gone or were read. -/
def poll (changes : List Change) (now : Option Float) : Action (List String) := do
  let w ← get
  let r := Watch.round w.scene w.catalog w.schedule changes (now.getD w.clock)
  Action.note r.notes
  modify fun w => { w with catalog := r.catalog, schedule := r.schedule }
  let touched ← Action.ofExcept .file r.touched
  if !touched.isEmpty then
    Action.display fun b => b.setTests r.catalog.countTests
  return touched

end FeatureRun.Workspace
