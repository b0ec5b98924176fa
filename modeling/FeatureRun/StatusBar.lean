/-!
# The status bar

One line about the state of the workspace: how many tests there are, what is running, or how the
last run went. `seen` collects every text that was shown.
-/
set_option autoImplicit false

namespace FeatureRun

inductive BarState where
  | idle
  | running
  | passed
  | failed
  deriving DecidableEq, Repr

def BarState.word : BarState → String
  | .idle => "idle"
  | .running => "running"
  | .passed => "passed"
  | .failed => "failed"

structure StatusBar where
  state : BarState
  text : String
  tests : Int
  /-- The texts shown so far, the last one first. -/
  seen : List String
  deriving DecidableEq, Repr

namespace StatusBar

/-- A longer name is cut to this length. -/
def nameLength : Nat := 30

/-- A name, or its beginning and an ellipsis. -/
def shorten (name : String) : String :=
  if name.length ≤ nameLength then name
  else String.ofList (name.toList.take (nameLength - 3)) ++ "..."

def display (b : StatusBar) (state : BarState) (text : String) : StatusBar :=
  { b with state := state, text := text, seen := text :: b.seen }

def idle (b : StatusBar) : StatusBar :=
  b.display .idle ("Cucumber: " ++ toString b.tests ++ " tests")

def new : StatusBar := StatusBar.idle ⟨.idle, "", 0, []⟩

def setTests (b : StatusBar) (count : Int) : StatusBar := { b with tests := count }.idle

/-- A run of something with a name, if it has one. -/
def running (b : StatusBar) (name : Option String) : StatusBar :=
  match name with
  | some n =>
    b.display .running (if n = "" then "Running tests..." else "Running: " ++ shorten n)
  | none => b.display .running "Running tests..."

def passed (b : StatusBar) : StatusBar := b.display .passed "Cucumber: Passed"

/-- A failed run; the count is shown unless it is absent or zero. -/
def failed (b : StatusBar) (count : Option Int) : StatusBar :=
  match count with
  | some n =>
    b.display .failed
      (if n = 0 then "Cucumber: Failed" else "Cucumber: " ++ toString n ++ " failed")
  | none => b.display .failed "Cucumber: Failed"

end StatusBar
end FeatureRun
