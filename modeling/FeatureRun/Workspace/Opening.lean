import FeatureRun.Workspace.Files

/-!
# Opening a session

The settings come first, and with them the level of the journal. Then the directory for the state of
the workspace is made, the feature files are discovered, and the store of results is opened.
-/
set_option autoImplicit false

namespace FeatureRun

def stateDir (root : Path) : Path := root.child ".cuke"

def settingsFile (root : Path) : Path := (stateDir root).child "config.yaml"

def storeFile (root : Path) : Path := (stateDir root).child "results.db"

namespace Workspace

/-- The settings on the disk by a loader, or the default ones if there is no file with settings. -/
def settingsAt (load : String → Settings.Loaded Yaml.NodeId) (disk : FileTree) (root : Path) :
    Except Fault Settings :=
  let file := settingsFile root
  if disk.exists? file then
    match disk.readText file file.toString with
    | .error e => .error (.text e)
    | .ok text => (Settings.readBy load text).mapError .settings
  else .ok .default

/-- Reads the settings and sets the level of the journal. -/
def loadSettings : Action Unit := do
  let w ← get
  let s ← Action.ofExcept id (settingsAt w.surroundings.load w.disk w.root)
  let threshold := (Level.ofWord? s.logLevel).getD w.journal.threshold
  set { w with settings := s, journal := { w.journal with threshold := threshold } }

/-- Makes a directory and those above it. -/
def makeDirs (p : Path) : Action Unit := fun w =>
  let (r, disk) := w.toMachine.makeDirs p
  (r, { w with disk := disk })

/-- Opens the store; it is empty if there is no file for it yet. -/
def openStore : Action Unit := do
  let w ← get
  let file := storeFile w.root
  if !w.disk.exists? file then
    let disk ← Action.ofExcept .file (w.disk.write file [])
    set { w with disk := disk, store := .empty }

/-- Opens a session at the root of the workspace, with nothing pending. -/
def openSession : Action Unit := do
  loadSettings
  makeDirs (stateDir (← get).root)
  Action.ensureRoom .discover
  let _ ← refresh
  openStore
  modify fun w => { w with schedule := .empty w.settings.debounce }

/-- A workspace at the working directory of a machine, before anything is known about it. -/
def start (m : Machine) : Workspace :=
  { toMachine := m, toSession := .blank (Path.resolve m.directory m.directory) }

/-- The results that are stored for the features of the catalog. -/
def storedResults (w : Workspace) : Results :=
  .ofList (w.catalog.sorted.flatMap fun f => (w.store.getFile f.path).entries)

/-- The same, if the store can be asked for every file. -/
def readStored (w : Workspace) : Except Fault Results :=
  match (w.catalog.sorted.map Feature.path).findSome? Text.encodeFault? with
  | some f => .error (.unencodable f)
  | none => .ok w.storedResults

end Workspace
end FeatureRun
