import FeatureRun.Path.Basic
import FeatureRun.Settings

/-!
# Surroundings

What a machine allows its programs apart from what is on its disk. A loader makes settings of texts,
the system may refuse a nap, and a program has only so much room for work that goes deeper and
deeper.
-/
set_option autoImplicit false

namespace FeatureRun

/-- Why a nap is refused. -/
inductive NapFault where
  /-- Its length is no number. -/
  | noNumber
  | negative
  /-- There is no time so far ahead. -/
  | tooLong
  /-- The system does not take it. -/
  | refused
  deriving DecidableEq, Repr

def NapFault.message : NapFault → String
  | .noNumber => "Invalid value NaN (not a number)"
  | .negative => "sleep length must be non-negative"
  | .tooLong => "timestamp out of range for platform time_t"
  | .refused => "[Errno 22] Invalid argument"

/-- Work that goes the deeper, the deeper directories lie within each other. -/
inductive Work where
  /-- Looking for the feature files of a workspace. -/
  | discover
  /-- Looking for the packages with step definitions. -/
  | glue
  /-- Making a directory and those above it. -/
  | makeDirs (p : Path)

structure Surroundings where
  /-- What is made of the text of a settings file. -/
  load : String → Settings.Loaded Yaml.NodeId
  /-- Why there is no nap of so many seconds. -/
  refusedNap? : Float → Option NapFault
  /-- How many arrays and objects of a report may lie within each other. -/
  levels : Nat
  /-- Whether there is no room for a piece of work. -/
  tooDeep : Work → Bool

namespace Surroundings

/-- The number of seconds from which on no time is so far ahead, as nanoseconds have 63 bits. -/
def endOfTime : Float := 9223372036.854775807

/-- Systems take naps of all lengths that end before that. -/
def usualRefusal? (seconds : Float) : Option NapFault :=
  if seconds.isNaN then some .noNumber
  else if seconds < 0 then some .negative
  else if endOfTime ≤ seconds then some .tooLong
  else none

/-- Documents are loaded, and there is room for all work that is not out of the common. -/
def usual : Surroundings := ⟨Settings.load, usualRefusal?, 900, fun _ => false⟩

end Surroundings
end FeatureRun
