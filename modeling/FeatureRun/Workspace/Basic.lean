import FeatureRun.Catalog.Basic
import FeatureRun.StatusBar
import FeatureRun.Watch.Schedule
import FeatureRun.Workspace.Fault

/-!
# Workspaces

A workspace is a machine and a session on it. The machine holds what outlives a session: the disk,
the store of results, and the journal. A session holds what is known about the features of one root
directory. An `Action` is an operation on a workspace that may fail; what it did before it failed is
not undone.
-/
set_option autoImplicit false

namespace FeatureRun

/-- What a runner was asked to run, and where it was told to put its report. -/
structure Launch where
  targets : List Target
  report : String
  deriving DecidableEq, Repr

structure Machine where
  disk : FileTree
  store : Store
  journal : Journal
  /-- The working directory, where paths without a root start. -/
  directory : String
  /-- The time of day that records get. -/
  stamp : String
  /-- The milliseconds since the epoch that reports are named by. -/
  millis : Nat
  /-- The seconds by which deadlines are set. -/
  clock : Float
  /-- The naps taken, the last one first. -/
  naps : List Float
  /-- The launches of runners, the last one first. -/
  launches : List Launch
  surroundings : Surroundings

structure Session where
  root : Path
  settings : Settings
  catalog : Catalog
  status : StatusBar
  schedule : Schedule

/-- A session at a root directory about which nothing is known yet. -/
def Session.blank (root : Path) : Session :=
  ⟨root, .default, .empty, .new, .empty Schedule.usualDelay⟩

structure Workspace extends Machine, Session

abbrev Action (α : Type) := ExceptT Fault (StateM Workspace) α

namespace Action

variable {ε α : Type}

/-- The value of something that may fail. -/
def ofExcept (fault : ε → Fault) : Except ε α → Action α
  | .ok a => pure a
  | .error e => throw (fault e)

/-- Does something last, also when the action fails. -/
def endingWith (act : Action α) (last : Workspace → Workspace) : Action α :=
  fun w => let (r, w) := act w; (r, last w)

def note (ns : List Note) : Action Unit := modify fun w => { w with journal := w.journal.add ns }

def display (change : StatusBar → StatusBar) : Action Unit :=
  modify fun w => { w with status := change w.status }

/-- Goes on if there is room for a piece of work. -/
def ensureRoom (work : Work) : Action Unit := do
  if (← get).surroundings.tooDeep work then throw .tooDeep

/-- Goes on if all texts can be stored or printed. -/
def ensureEncoded (texts : List String) : Action Unit :=
  match texts.findSome? Text.encodeFault? with
  | some f => throw (.unencodable f)
  | none => pure ()

/-- Does something to the store that may fail and gives a value. -/
def onStore (act : Store → Except StoreFault α × Store) : Action α := fun w =>
  let (r, store) := act w.store
  (r.mapError .store, { w with store := store })

end Action

namespace Machine

/-- A path as seen from the working directory. -/
def locate (m : Machine) (p : Path) : Path := (Path.ofString m.directory).join p

/-- The id of the file that a path names. -/
def fileId (m : Machine) (path : String) : String := Path.normalize m.directory path

/-- Makes a directory and those above it, if the path can be given to the system and there is room
for the work. Also gives the disk afterwards. -/
def makeDirs (m : Machine) (p : Path) : Except Fault Unit × FileTree :=
  match Text.systemFault? p.toString with
  | some f => (.error (.unencodable f), m.disk)
  | none =>
    if m.surroundings.tooDeep (.makeDirs p) then (.error .tooDeep, m.disk)
    else
      let (r, disk) := m.disk.makeDirs p
      (r.mapError .file, disk)

/-- The text of the file that a path names. -/
def readText (m : Machine) (path : String) : Except TextFault String :=
  let p := Path.ofString path
  m.disk.readText (m.locate p) p.toString

end Machine
end FeatureRun
