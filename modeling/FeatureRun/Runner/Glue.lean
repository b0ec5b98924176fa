import FeatureRun.Disk.Walk
import FeatureRun.Text.Search

/-!
# Packages with step definitions

Besides the packages that are configured, the runner is told of one package found below
`src/test/java`: that of the first directory whose name ends in `steps` or `step` and below which
there is a Java file. A directory comes before those below it, and those beside each other are taken
by name.
-/
set_option autoImplicit false

namespace FeatureRun.Runner

def isStepsName (name : String) : Bool := Text.endsWith name "steps" || Text.endsWith name "step"

mutual

/-- Whether there is a Java file anywhere below a directory. -/
def hasJava : FileTree → Bool
  | .file _ => false
  | .dir es => anyJava es

def anyJava : List (String × FileTree) → Bool
  | [] => false
  | (name, t) :: es => (!t.isDir && Text.endsWith name ".java") || hasJava t || anyJava es

end

mutual

/-- The names that lead from a directory called `name` to the first one with step definitions. -/
def stepsBelow? (name : String) : FileTree → Option (List String)
  | .file _ => none
  | .dir es =>
    if isStepsName name && anyJava es then some []
    else (FileTree.byName (stepsInEach es)).findSome? fun (n, found) => found.map (n :: ·)

/-- What is found in each of the directories. -/
def stepsInEach : List (String × FileTree) → List (String × Option (List String))
  | [] => []
  | (n, t) :: es => (n, stepsBelow? n t) :: stepsInEach es

end

def testDir (root : Path) : Path := root.join (Path.ofString "src/test/java")

/-- The package of the first directory with step definitions. -/
def stepsPackage? (disk : FileTree) (root : Path) : Option String :=
  ((disk.node? (testDir root)).bind (stepsBelow? "java")).map (Text.join ".")

/-- The configured packages and the one that is found, unless it is configured too. -/
def glue (disk : FileTree) (root : Path) (configured : List String) : List String :=
  match stepsPackage? disk root with
  | some package => if configured.contains package then configured else configured ++ [package]
  | none => configured

end FeatureRun.Runner
