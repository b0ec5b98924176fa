import FeatureRun.Console.Printed

/-!
# Watching from the command line

Every batch of changes is one round of watching. For each file that was read or is gone a line is
printed. Watching ends when the user interrupts it or no more changes come.
-/
set_option autoImplicit false

namespace FeatureRun.Console

/-- What happens on the disk, and the changes that are reported. -/
structure Batch where
  written : List (Path × Bytes)
  deleted : List Path
  changes : List Change

/-- What the events of a watch are: batches, and whether an interruption comes after them. -/
structure Events where
  batches : List Batch
  interrupted : Bool

/-- The disk after the files of a batch have been written and deleted. -/
def Batch.onDisk (b : Batch) (disk : FileTree) : FileTree :=
  let written := b.written.foldl (fun t e => (t.establish e.1 e.2).2) disk
  b.deleted.foldl FileTree.delete written

def touchedLine (w : Workspace) (file : String) : String :=
  let action := if w.catalog.features.contains file then "updated" else "removed"
  "  " ++ Catalog.relativePath w.root file ++ " " ++ action ++ ": " ++ w.status.text

/-- The rounds of watching, with what is printed after each of them. A fault ends them, also one of
printing. -/
def watchRounds (w : Workspace) : List Batch → Printed × Workspace
  | [] => (.done [], w)
  | b :: bs =>
    let w := { w with disk := b.onDisk w.disk }
    match (Workspace.poll b.changes none).run.run w with
    | (.error e, w) => (.escaped e, w)
    | (.ok touched, w) =>
      let printed := Printed.encoded (.done (touched.map (touchedLine w)))
      match printed.ending with
      | .fault _ => (printed, w)
      | .exit _ =>
        let (rest, w) := watchRounds w bs
        (rest.after printed.out, w)

def watching (events : Events) (w : Workspace) : Printed × Workspace :=
  let header :=
    "Watching " ++ w.root.toString ++ " (" ++ w.status.text ++ "). Press Ctrl+C to stop."
  match Text.encodeFault? header with
  | some f => (.escaped (.unencodable f), w)
  | none =>
    let (rounds, w) := watchRounds w events.batches
    match rounds.ending with
    | .exit _ =>
      (.done (header :: rounds.out ++ if events.interrupted then ["Stopped watching."] else []), w)
    | .fault _ => (rounds.after [header], w)

def watch (events : Events) (m : Machine) : Printed × Machine := withSession m (watching events)

end FeatureRun.Console
