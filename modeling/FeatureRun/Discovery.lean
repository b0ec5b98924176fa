import FeatureRun.Disk.Walk
import FeatureRun.Journal
import FeatureRun.Path.Basic
import FeatureRun.Text.Search

/-!
# Discovering feature files

The feature files of a workspace are the files below its root whose names end in `.feature`, outside
the excluded directories.
-/
set_option autoImplicit false

namespace FeatureRun.Discovery

def isFeatureName (name : String) : Bool := Text.endsWith name ".feature"

/-- The feature files below a directory, each by the names that lead to it. -/
def below (excluded : List String) (t : FileTree) : List (List String) :=
  t.walk (fun name => !excluded.contains name) isFeatureName

/-- The feature files below the root of a workspace. -/
def featureFiles (disk : FileTree) (root : Path) (excluded : List String) : List Path :=
  match disk.node? root with
  | some t => (below excluded t).map fun names => ⟨root.root, root.parts ++ names⟩
  | none => []

def foundNote (count : Nat) : Note := ⟨.info, "Found " ++ toString count ++ " feature file(s)"⟩

end FeatureRun.Discovery
