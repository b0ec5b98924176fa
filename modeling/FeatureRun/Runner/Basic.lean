import FeatureRun.Decimal.Style
import FeatureRun.Journal
import FeatureRun.Runner.Command
import FeatureRun.Runner.Glue

/-!
# Running targets

The runner is a program of its own. Its command line is made from the settings and the packages with
step definitions; what becomes of the program is its exit code, or a fault.
-/
set_option autoImplicit false

namespace FeatureRun.Runner

/-- Why nothing was run, or not to the end. -/
inductive Fault where
  | noGlue
  | notFound (program : String)
  | timedOut (seconds : Float)
  /-- Any other trouble, in words. -/
  | other (message : String)

def Fault.message : Fault → String
  | .noGlue => "Glue path not specified: set glue_paths in .cuke/config.yaml"
  | .notFound program => "Runner executable not found: " ++ program
  | .timedOut seconds => "Runner timed out after " ++ Decimal.briefText seconds ++ "s"
  | .other m => m

/-- What a system says when it does not start a program: the number of its error, and the text. -/
structure SystemFault where
  number : Nat
  message : String
  deriving DecidableEq, Repr

/-- The number of the error that something is not there. -/
def SystemFault.notThere : Nat := 2

/-- What becomes of a program that is started. -/
inductive Ending where
  | exited (code : Int)
  | notFound
  | timedOut
  /-- The system does not start it. -/
  | refused (f : SystemFault)
  deriving DecidableEq, Repr

/-- A program that is started: its words, where it runs, and for how many seconds at most. -/
structure Call where
  words : List String
  directory : Path
  timeout : Float

/-- The call for targets; there must be a package with step definitions. -/
def call (s : Settings) (disk : FileTree) (root : Path) (targets : List Target)
    (report : String) : Except Fault Call :=
  match glue disk root s.gluePaths with
  | [] => .error .noGlue
  | packages => .ok ⟨commandLine s root packages targets report, root, s.timeout⟩

def callNotes (targets : List Target) (c : Call) : List Note :=
  [⟨.info, "Running " ++ toString targets.length ++ " target(s)"⟩,
    ⟨.debug, "Runner command: " ++ Text.join " " c.words⟩]

/-- The exit code of a call that ended, unless the system has not even started it. -/
def Call.result (c : Call) : Ending → Except SystemFault (Except Fault Int)
  | .exited code => .ok (.ok code)
  | .notFound => .ok (.error (.notFound (c.words.head?.getD "")))
  | .timedOut => .ok (.error (.timedOut c.timeout))
  | .refused f =>
    if f.number = SystemFault.notThere then .ok (.error (.notFound (c.words.head?.getD "")))
    else .error f

end FeatureRun.Runner
