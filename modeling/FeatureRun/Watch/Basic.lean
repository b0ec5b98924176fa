import FeatureRun.Catalog.Update
import FeatureRun.Watch.Filter
import FeatureRun.Watch.Schedule

/-!
# Watching feature files

Changes come in batches. A changed file that is there gets a deadline, whatever kind of change is
reported, since editors that save by renaming report a file as deleted and added. A file that is
not there leaves the catalog at once. Files are read when their deadlines have passed. Where the
system does not say whether a file is there, the batch breaks off.
-/
set_option autoImplicit false

namespace FeatureRun.Watch

/-- Where changes happen, and at what time. -/
structure Scene where
  disk : FileTree
  directory : String
  root : Path
  excluded : List String
  clock : Float

/-- What the watcher keeps up to date, and what it has found to be gone in the batch so far. -/
structure State where
  catalog : Catalog
  schedule : Schedule
  removed : List String
  /-- The notes of the batch, the last one first. -/
  notes : List Note

def State.noting (s : State) (n : Note) : State := { s with notes := n :: s.notes }

/-- A file that is there becomes pending. -/
def State.touch (s : State) (clock : Float) (kind : Change.Kind) (file : String) : State :=
  { s with schedule := s.schedule.add clock file }.noting
    ⟨.debug, "Change detected (" ++ kind.word ++ "), scheduling re-parse: " ++ file⟩

/-- A file that is not there is forgotten, once in a batch. -/
def State.drop (s : State) (file : String) : State :=
  if s.removed.contains file then s
  else
    let s' :=
      { s with
        schedule := s.schedule.cancel file
        catalog := s.catalog.removeFile file
        removed := s.removed ++ [file] }
    if s.catalog.features.contains file then
      s'.noting ⟨.debug, "Removed deleted feature: " ++ file⟩
    else s'

/-- Takes in one change, if the system says whether its file is there. -/
def State.take (scene : Scene) (s : State) (c : Change) : Except FileFault State :=
  if accepts scene.root scene.excluded c.path then
    let file := Path.normalize scene.directory c.path
    match scene.disk.checkFile (Path.ofString file) with
    | .error e => .error e
    | .ok true => .ok (s.touch scene.clock c.kind file)
    | .ok false => .ok (s.drop file)
  else .ok s

/-- Takes in changes one after another. Those before a fault stay taken in. -/
def State.takeAll (scene : Scene) (s : State) : List Change → Except FileFault Unit × State
  | [] => (.ok (), s)
  | c :: cs =>
    match s.take scene c with
    | .error e => (.error e, s)
    | .ok s => s.takeAll scene cs

/-- The changes of a batch in the order of their paths. -/
def inOrder (cs : List Change) : List Change := cs.mergeSort fun a b => decide (a.path ≤ b.path)

/-- Takes in a batch of changes. -/
def apply (scene : Scene) (catalog : Catalog) (schedule : Schedule) (cs : List Change) :
    Except FileFault Unit × State :=
  State.takeAll scene ⟨catalog, schedule, [], []⟩ (inOrder cs)

/-- What one round of watching leads to. -/
structure Round where
  catalog : Catalog
  schedule : Schedule
  /-- The files that are gone, then those that were read, unless the batch broke off. -/
  touched : Except FileFault (List String)
  notes : List Note

/-- One round: a batch of changes, then the files that are due at `now`. A batch that breaks off is
the end of the round. -/
def round (scene : Scene) (catalog : Catalog) (schedule : Schedule) (cs : List Change)
    (now : Float) : Round :=
  match apply scene catalog schedule cs with
  | (.error e, s) => ⟨s.catalog, s.schedule, .error e, s.notes.reverse⟩
  | (.ok (), s) =>
    let due := s.schedule.due now
    { catalog := s.catalog.updateAll scene.disk due
      schedule := s.schedule.dropDue now
      touched := .ok (s.removed ++ due.filter fun file => !s.removed.contains file)
      notes := s.notes.reverse ++ s.catalog.updateAllNotes scene.disk due }

end FeatureRun.Watch
