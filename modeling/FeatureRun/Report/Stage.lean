import FeatureRun.Report.Await

/-!
# What happens to the place of a report

While a report is waited for, the file at its place may appear, change or vanish. A `Stage` is what
happens there at one time; stages turn into the sights that a wait is given.
-/
set_option autoImplicit false

namespace FeatureRun.Report

inductive Stage where
  /-- Nothing happens. -/
  | same
  /-- What stands there is taken away. -/
  | gone
  | directory
  | file (bytes : Bytes)

namespace Stage

def apply (t : FileTree) (p : Path) : Stage → FileTree
  | .same => t
  | .gone => t.delete p
  | .directory => ((t.delete p).makeDirs p).2
  | .file bytes =>
    match (t.delete p).write p bytes with
    | .ok t => t
    | .error _ => t

/-- The disk after each of the stages. -/
def disks (t : FileTree) (p : Path) : List Stage → List FileTree
  | [] => []
  | s :: ss => s.apply t p :: disks (s.apply t p) p ss

/-- The disk after the first `naps` stages, or after all of them if there are fewer. -/
def diskAfter (t : FileTree) (p : Path) (naps : Nat) (stages : List Stage) : FileTree :=
  ((disks t p (stages.take naps)).getLast?).getD t

end Stage

/-- Waits for the report at a path, with a stage after every nap. -/
def awaitAt (levels : Nat) (disk : FileTree) (p : Path) (attempts : Int) (stages : List Stage) :
    Waited :=
  await levels p.toString attempts (.at disk p) ((Stage.disks disk p stages).map fun t => .at t p)

end FeatureRun.Report
