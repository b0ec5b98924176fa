import FeatureRun.Discovery
import FeatureRun.Path.Basic
import FeatureRun.Text.Search

/-!
# Which changes matter

A change matters if it is about a feature file below the root of the workspace, none of whose
directories is excluded, and whose name is not that of a file that editors leave behind.
-/
set_option autoImplicit false

namespace FeatureRun

/-- What happened to a path. -/
inductive Change.Kind where
  | added
  | modified
  | deleted
  deriving DecidableEq, Repr

def Change.Kind.word : Change.Kind → String
  | .added => "added"
  | .modified => "modified"
  | .deleted => "deleted"

def Change.Kind.ofWord? : String → Option Change.Kind
  | "added" => some .added
  | "modified" => some .modified
  | "deleted" => some .deleted
  | _ => none

structure Change where
  kind : Change.Kind
  path : String
  deriving DecidableEq, Repr

namespace Watch

/-- The beginnings of names that editors give to lock files and to copies made for checking. Other
leftovers are known by their endings, which no name of a feature file has. -/
def leftoverBeginnings : List String := [".#", "flycheck_"]

def isLeftover (name : String) : Bool := leftoverBeginnings.any fun w => Text.startsWith name w

/-- The root directory that a text names, seen from the directory `cwd`. -/
def rootAt (cwd text : String) : Except FileFault Path :=
  if FileTree.hasNul (Path.ofString text) then .error ⟨.nul, text⟩
  else .ok (Path.resolve cwd text)

/-- Whether a change of a path matters. -/
def accepts (root : Path) (excluded : List String) (path : String) : Bool :=
  Discovery.isFeatureName path &&
    match root.below? (Path.ofString path) with
    | none => false
    | some parts =>
      !(parts.dropLast.any excluded.contains) &&
        !isLeftover ((Text.split '/' path).getLast?.getD "")

end Watch
end FeatureRun
