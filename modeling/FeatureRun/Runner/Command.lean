import FeatureRun.Catalog.Target
import FeatureRun.Settings

/-!
# The command line of the runner

What is to be run is passed to the runner as arguments: the packages with step definitions, the
plugins that print and report, a factory for objects if one is set, and the targets.
-/
set_option autoImplicit false

namespace FeatureRun.Runner

/-- The arguments for targets, `report` being the path of the report to write. -/
def arguments (targets : List Target) (glue : List String) (report : String)
    (factory : Option String) : List String :=
  (glue.flatMap fun g => ["--glue", g]) ++
    ["--plugin", "pretty", "--plugin", "json:" ++ report] ++
    (match factory.filter (· ≠ "") with
      | some f => ["--object-factory", f]
      | none => []) ++
    targets.map Target.text

/-- The class path, one entry for each directory as seen from the root. -/
def classPath (root : Path) (dirs : List String) : String :=
  Text.join ":" (dirs.map fun d => (root.join (Path.ofString d)).toString)

/-- The first words of the command line; the class path goes behind the first word. -/
def commandWords (root : Path) (command classpath : List String) : List String :=
  if classpath.isEmpty then command
  else command.take 1 ++ ["-cp", classPath root classpath] ++ command.drop 1

/-- The whole command line with these packages of step definitions. -/
def commandLine (s : Settings) (root : Path) (glue : List String) (targets : List Target)
    (report : String) : List String :=
  commandWords root s.runnerCommand s.classpath ++ arguments targets glue report s.objectFactory

end FeatureRun.Runner
