import FeatureRun.Console.Commands
import FeatureRun.Console.Watch

/-!
# From arguments to commands

The first argument names the command.
-/
set_option autoImplicit false

namespace FeatureRun.Console

inductive Command where
  | init
  | discover
  | run (targets : List String)
  | results (report : String) (targets : List String)
  /-- The command `results` without a report. -/
  | resultsWithout
  | status
  | watch
  | reset (path : Option String)
  | help
  | unknown (word : String)
  deriving DecidableEq, Repr

namespace Command

/-- The command that arguments name. -/
def ofArguments : List String → Command
  | [] => .help
  | "init" :: _ => .init
  | "discover" :: _ => .discover
  | "run" :: targets => .run targets
  | "results" :: report :: targets => .results report targets
  | "results" :: [] => .resultsWithout
  | "status" :: _ => .status
  | "watch" :: _ => .watch
  | "reset" :: path => .reset path.head?
  | "help" :: _ => .help
  | "--help" :: _ => .help
  | "-h" :: _ => .help
  | word :: _ => .unknown word

/-- Carries a command out, given what its runner does and which events there are to watch. Whatever
it prints is taken to get out. -/
def act (runner : Runner) (events : Events) (m : Machine) : Command → Printed × Machine
  | .init => Console.init m
  | .discover => Console.discover m
  | .run targets => Console.run runner targets m
  | .results report targets => Console.results report targets m
  | .resultsWithout =>
    (.refused "Usage: cuke results <report.json> [path[:line] ...]", m)
  | .status => Console.status m
  | .watch => Console.watch events m
  | .reset path => Console.reset path m
  | .help => (.done [usage], m)
  | .unknown word => (⟨[usage], ["Unknown command: " ++ word], .exit 1⟩, m)

/-- Carries a command out and prints what can be printed of it. -/
def perform (runner : Runner) (events : Events) (m : Machine) (c : Command) : Printed × Machine :=
  let (p, m) := c.act runner events m
  (p.encoded, m)

end Command
end FeatureRun.Console
