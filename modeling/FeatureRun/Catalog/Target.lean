import FeatureRun.Catalog.Node
import FeatureRun.Disk.Basic
import FeatureRun.Feature.Locate

/-!
# Targets

What a runner is told to run: a path, relative to the workspace where possible, and a line. Targets
typed by a user have the same form, and any line within a scenario selects that scenario.
-/
set_option autoImplicit false

namespace FeatureRun

structure Target where
  path : String
  scenarioLine : Option Int
  rowLine : Option Int
  deriving DecidableEq, Repr

/-- A line, unless it is absent or zero. -/
def nonzero (line : Option Int) : Option Int := line.filter (· ≠ 0)

/-- The text of a target: its path, and the line of the row or else of the scenario. -/
def Target.text (t : Target) : String :=
  match nonzero t.rowLine <|> nonzero t.scenarioLine with
  | some line => t.path ++ ":" ++ toString line
  | none => t.path

/-- Why a text is no target. -/
inductive TargetFault where
  | badNumber (e : Text.NumeralError)
  | unknownFile (path : String)
  | noScenario (path : String) (line : Int)
  | unreadable (f : TextFault)
  deriving DecidableEq, Repr

def TargetFault.message : TargetFault → String
  | .badNumber e => e.message
  | .unknownFile path => "Not a known feature file: " ++ path
  | .noScenario path line => "No scenario at " ++ path ++ ":" ++ toString line
  | .unreadable f => f.message

namespace Catalog

/-- The path of a file as seen from the workspace, or its own path if it lies elsewhere. -/
def relativePath (root : Path) (file : String) : String :=
  let p := Path.ofString file
  match root.below? p with
  | some parts => (Path.mk .none parts).toString
  | none => p.toString

def targetOf (root : Path) (ref : NodeRef) : Target :=
  let path := relativePath root ref.file
  match ref with
  | .feature _ => ⟨path, none, none⟩
  | .rule _ line => ⟨path, some line, none⟩
  | .scenario _ line => ⟨path, some line, none⟩
  | .row _ scenarioLine line => ⟨path, some scenarioLine, some line⟩

/-- The target that runs a node. -/
def targetFor (root : Path) (id : String) : Lookup Target :=
  (NodeRef.read id).map (targetOf root)

/-- A target as typed: its path, and its line if digits follow the last colon. -/
def splitTarget (spec : String) : Except Text.NumeralError (String × Option Int) :=
  match Text.splitLast? ":" spec with
  | some (path, tail) =>
    if tail ≠ "" && tail.toList.all Text.isDigit then
      (Text.readInt tail).map fun n => (path, some n)
    else .ok (spec, none)
  | none => .ok (spec, none)

/-- The id of the file that a typed path names. -/
def fileOf (root : Path) (path : String) : String :=
  Path.normalizeAbsolute (root.join (Path.ofString path)).toString

/-- The id, if it names a node. -/
def known? (c : Catalog) (id : String) : Lookup (Option String) :=
  (c.resolve id).map fun node => node.map fun _ => id

/-- The id of the example row on a line of a text, or else of the scenario around it. -/
def idAt? (c : Catalog) (file text : String) (line : Int) : Lookup (Option String) :=
  let row : Lookup (Option String) :=
    match Feature.exampleAt? text line with
    | some (s, r) => c.known? (rowId file s r)
    | none => .ok none
  match row with
  | .error e => .error e
  | .ok (some id) => .ok (some id)
  | .ok none =>
    match Feature.scenarioAt? text line with
    | some s => c.known? (scenarioId file s.line)
    | none => .ok none

/-- The id of the node that a typed target selects. -/
def readTarget (c : Catalog) (disk : FileTree) (root : Path) (spec : String) :
    Except TargetFault String :=
  match splitTarget spec with
  | .error e => .error (.badNumber e)
  | .ok (path, line) =>
    let file := fileOf root path
    match c.get? file, line with
    | none, _ => .error (.unknownFile path)
    | some _, none => .ok file
    | some f, some line =>
      if (ruleOn? f line).isSome then .ok (ruleId file line)
      else
        match disk.readText (Path.ofString file) file with
        | .error e => .error (.unreadable e)
        | .ok text =>
          match c.idAt? file text line with
          | .error e => .error (.badNumber e)
          | .ok (some id) => .ok id
          | .ok none => .error (.noScenario path line)

end Catalog
end FeatureRun
