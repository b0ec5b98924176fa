import FeatureRun.Text.Numeral
import FeatureRun.Text.Search

/-!
# Node ids

The nodes of a feature file are named by the id of the file and their lines:

* the feature by the file's id alone,
* a rule by `file:rule:line`,
* a scenario by `file:scenario:line`,
* an example row by `file:scenario:line:example:line`.

`NodeRef` is what an id refers to, `NodeRef.read` the way back from an id. Reading looks for the
last `:rule:`, then for the last `:scenario:`, and within what follows for the first `:example:`.
-/
set_option autoImplicit false

namespace FeatureRun

/-- What a node id refers to. -/
inductive NodeRef where
  | feature (file : String)
  | rule (file : String) (line : Int)
  | scenario (file : String) (line : Int)
  | row (file : String) (scenarioLine line : Int)
  deriving DecidableEq, Repr

namespace NodeRef

def ruleMark : String := ":rule:"

def scenarioMark : String := ":scenario:"

def exampleMark : String := ":example:"

def file : NodeRef → String
  | .feature f => f
  | .rule f _ => f
  | .scenario f _ => f
  | .row f _ _ => f

/-- The id that names a node. -/
def id : NodeRef → String
  | .feature f => f
  | .rule f line => f ++ ruleMark ++ toString line
  | .scenario f line => f ++ scenarioMark ++ toString line
  | .row f scenarioLine line =>
    f ++ scenarioMark ++ toString scenarioLine ++ exampleMark ++ toString line

/-- The scenario or row that follows the mark of a scenario. -/
def readScenario (file rest : String) : Except Text.NumeralError NodeRef :=
  match Text.splitFirst? exampleMark rest with
  | some (before, after) =>
    match Text.readInt before with
    | .error e => .error e
    | .ok s => (Text.readInt after).map fun line => .row file s line
  | none => (Text.readInt rest).map (.scenario file)

/-- What an id refers to. -/
def read (s : String) : Except Text.NumeralError NodeRef :=
  match Text.splitLast? ruleMark s with
  | some (file, line) => (Text.readInt line).map (.rule file)
  | none =>
    match Text.splitLast? scenarioMark s with
    | some (file, rest) => readScenario file rest
    | none => .ok (.feature s)

end NodeRef

def ruleId (file : String) (line : Int) : String := (NodeRef.rule file line).id

def scenarioId (file : String) (line : Int) : String := (NodeRef.scenario file line).id

def rowId (file : String) (scenarioLine line : Int) : String :=
  (NodeRef.row file scenarioLine line).id

end FeatureRun
