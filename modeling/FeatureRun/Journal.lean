import FeatureRun.Calendar
import FeatureRun.Text.Blank
import FeatureRun.Text.Lines
import FeatureRun.Text.LowerCase
import FeatureRun.Text.Quoted

/-!
# The journal

Notes about what the program does, each with a level. A journal shows those at or above the level it
is set to.
-/
set_option autoImplicit false

namespace FeatureRun

inductive Level where
  | trace
  | debug
  | info
  | warning
  | error
  deriving DecidableEq, Repr

namespace Level

def number : Level → Nat
  | .trace => 5
  | .debug => 10
  | .info => 20
  | .warning => 30
  | .error => 40

def name : Level → String
  | .trace => "TRACE"
  | .debug => "DEBUG"
  | .info => "INFO"
  | .warning => "WARNING"
  | .error => "ERROR"

/-- The words by which levels are chosen. -/
def words : List (String × Level) :=
  [("error", .error), ("warn", .warning), ("warning", .warning), ("info", .info),
    ("debug", .debug), ("trace", .trace)]

/-- The level that a word chooses, in any case and with blanks around it. -/
def ofWord? (word : String) : Option Level := words.lookup (Text.lower (Text.trimmed word))

def unknownMessage (word : String) : String :=
  "Unknown log level: " ++ Text.quoted word ++ " (expected one of " ++
    Text.join ", " (words.map Prod.fst) ++ ")"

end Level

structure Note where
  level : Level
  message : String
  deriving DecidableEq, Repr

/-- A journal with the notes it has shown, the last one first. -/
structure Journal where
  threshold : Level
  shown : List Note
  deriving DecidableEq, Repr

namespace Journal

def new : Journal := ⟨.info, []⟩

/-- Takes in notes; those below the threshold are not shown. -/
def add (j : Journal) (ns : List Note) : Journal :=
  { j with
    shown := (ns.filter fun n => j.threshold.number ≤ n.level.number).reverse ++ j.shown }

end Journal

/-- A note as a line, with the time of day of a number of seconds since the epoch. -/
def noteLine (levelName : String) (seconds : Int) (message : String) :
    Except Calendar.ClockFault String :=
  (Calendar.clock seconds).map fun time => "[" ++ time ++ "] [" ++ levelName ++ "] " ++ message

/-- Setting up the journal's output: the level, and whether there is an output yet. An unknown level
changes nothing. -/
structure Output where
  level : Nat
  attached : Bool
  deriving DecidableEq, Repr

def Output.configure (o : Output) (word : String) : Option Output :=
  (Level.ofWord? word).map fun l => { o with level := l.number, attached := true }

end FeatureRun
