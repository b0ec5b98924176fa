import FeatureRun.Journal
import FeatureRun.OrderedMap
import FeatureRun.Yaml.Document

/-!
# Settings of a workspace

The settings file is a YAML mapping. Every setting has a kind and a default; entries under other
keys are passed over. `Settings.ofValue` checks the entries in their order, then the level and the
runner command. Settings are three layers deep, so `ofValue` looks at a value, its parts and their
parts, whatever may lie below.
-/
set_option autoImplicit false

namespace FeatureRun

structure Settings where
  gluePaths : List String
  objectFactory : Option String
  excludeDirs : List String
  logLevel : String
  runnerCommand : List String
  classpath : List String
  reportDir : String
  reportAttempts : Int
  reportDelay : Float
  debounce : Float
  timeout : Float

namespace Settings

def default : Settings where
  gluePaths := []
  objectFactory := none
  excludeDirs := ["target", "build", "out", "dist", "node_modules", ".git"]
  logLevel := "info"
  runnerCommand := ["java", "io.cucumber.core.cli.Main"]
  classpath := ["target/test-classes", "target/classes"]
  reportDir := "target"
  reportAttempts := 20
  reportDelay := 0.5
  debounce := 1.2
  timeout := 600.0

/-- What the value of a setting has to be. -/
inductive Kind where
  | strings
  | positiveInt
  | nonNegative
  | string
  deriving DecidableEq, Repr

def Kind.expected : Kind → String
  | .strings => "expected a list of strings"
  | .positiveInt => "expected a positive integer"
  | .nonNegative => "expected a non-negative number"
  | .string => "expected a string"

/-- Why a text holds no settings. The last two are no faults of the settings as such: a number or
date without a value, and a number that no double can hold. -/
inductive ConfigError where
  | invalidYaml (fault : Yaml.Fault)
  | notMapping
  | wrongKind (key : String) (kind : Kind)
  | unknownLevel (word : String)
  | emptyCommand
  | refused (r : Yaml.Refusal)
  | tooLarge
  deriving DecidableEq, Repr

def ConfigError.message : ConfigError → String
  | .invalidYaml f => "Invalid YAML: " ++ f.message
  | .notMapping => "Invalid config: expected a mapping"
  | .wrongKind key kind => key ++ ": " ++ kind.expected
  | .unknownLevel word => Level.unknownMessage word
  | .emptyCommand => "runner_command: must not be empty"
  | .refused r => r.message
  | .tooLarge => "int too large to convert to float"

abbrev Checked (α : Type) := Except ConfigError α

variable {α : Type}

def stringItem? : Yaml.Value α → Option String
  | .str s => some s
  | _ => none

/-- A list of strings; null counts as an empty one, and so does a list of no pairs. -/
def strings (key : String) : Yaml.Value (Yaml.Value α) → Checked (List String)
  | .null => .ok []
  | .pairs [] => .ok []
  | .sequence vs =>
    match vs.mapM stringItem? with
    | some ss => .ok ss
    | none => .error (.wrongKind key .strings)
  | _ => .error (.wrongKind key .strings)

def positiveInt (key : String) : Yaml.Value α → Checked Int
  | .int n => if n < 1 then .error (.wrongKind key .positiveInt) else .ok n
  | _ => .error (.wrongKind key .positiveInt)

def nonNegative (key : String) : Yaml.Value α → Checked Float
  | .int n =>
    if n < 0 then .error (.wrongKind key .nonNegative)
    else
      match Decimal.floatOfInt? n with
      | some x => .ok x
      | none => .error .tooLarge
  | .float x => if x < 0 then .error (.wrongKind key .nonNegative) else .ok x
  | _ => .error (.wrongKind key .nonNegative)

def string (key : String) : Yaml.Value α → Checked String
  | .str s => .ok s
  | _ => .error (.wrongKind key .string)

/-- A string, where null and the empty string count as absent. -/
def optionalString (key : String) : Yaml.Value α → Checked (Option String)
  | .null => .ok none
  | .str s => .ok (if s = "" then none else some s)
  | _ => .error (.wrongKind key .string)

/-- Sets one setting; a key that is none changes nothing. -/
def set (s : Settings) (key : String) (v : Yaml.Value (Yaml.Value α)) : Checked Settings :=
  match key with
  | "glue_paths" => (strings key v).map fun x => { s with gluePaths := x }
  | "exclude_dirs" => (strings key v).map fun x => { s with excludeDirs := x }
  | "runner_command" => (strings key v).map fun x => { s with runnerCommand := x }
  | "classpath" => (strings key v).map fun x => { s with classpath := x }
  | "report_attempts" => (positiveInt key v).map fun x => { s with reportAttempts := x }
  | "report_delay" => (nonNegative key v).map fun x => { s with reportDelay := x }
  | "debounce" => (nonNegative key v).map fun x => { s with debounce := x }
  | "timeout" => (nonNegative key v).map fun x => { s with timeout := x }
  | "object_factory" => (optionalString key v).map fun x => { s with objectFactory := x }
  | "log_level" => (string key v).map fun x => { s with logLevel := x }
  | "report_dir" => (string key v).map fun x => { s with reportDir := x }
  | _ => .ok s

/-- The entries with string keys, each key once: in its first place, with its last value. -/
def entriesOf (es : List (Yaml.Value α × Yaml.Value α)) : List (String × Yaml.Value α) :=
  (OrderedMap.ofList (es.filterMap fun (k, v) => (stringItem? k).map fun key => (key, v))).entries

def setAll (s : Settings) : List (String × Yaml.Value (Yaml.Value α)) → Checked Settings
  | [] => .ok s
  | (k, v) :: es =>
    match s.set k v with
    | .error e => .error e
    | .ok s => s.setAll es

/-- What must hold of the settings as a whole. -/
def check (s : Settings) : Checked Settings :=
  if (Level.ofWord? s.logLevel).isNone then .error (.unknownLevel s.logLevel)
  else if s.runnerCommand.isEmpty then .error .emptyCommand
  else .ok s

/-- The settings that a YAML value holds; null holds the defaults. -/
def ofValue : Yaml.Value (Yaml.Value (Yaml.Value α)) → Checked Settings
  | .null => .ok default
  | .mapping es =>
    match default.setAll (entriesOf es) with
    | .error e => .error e
    | .ok s => s.check
  | _ => .error .notMapping

/-- What a loader makes of a text: a value with its parts and their parts, or why there is none. -/
abbrev Loaded (α : Type) := Except Yaml.Error (Yaml.Value (Yaml.Value (Yaml.Value α)))

/-- The settings in what has been loaded. -/
def ofLoaded : Loaded α → Checked Settings
  | .error (.fault f) => .error (.invalidYaml f)
  | .error (.refusal r) => .error (.refused r)
  | .ok v => ofValue v

/-- The settings that a text holds by a loader. -/
def readBy (load : String → Loaded α) (text : String) : Checked Settings := ofLoaded (load text)

/-- The loader of documents. -/
def load (text : String) : Loaded Yaml.NodeId :=
  (Yaml.Document.read text).map Yaml.Document.unfolded

/-- The settings that a text holds. -/
def read (text : String) : Checked Settings := readBy load text

end Settings
end FeatureRun
