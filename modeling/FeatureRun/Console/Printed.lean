import FeatureRun.Workspace.Opening

/-!
# What commands print

A command is a function of the machine: it says what is printed and how the command ends, and what
the machine is like afterwards. A command ends with an exit code, or with a fault that it does not
handle. What was printed before such a fault stays printed. A piece that cannot be encoded is such a
fault.
-/
set_option autoImplicit false

namespace FeatureRun.Console

inductive Ending where
  | exit (code : Nat)
  | fault (e : Fault)

/-- What a command printed, in pieces that each get a line feed, and how it ended. -/
structure Printed where
  out : List String
  err : List String
  ending : Ending

namespace Printed

/-- A command that did what it was asked to. -/
def done (out : List String) : Printed := ⟨out, [], .exit 0⟩

/-- A command that failed with a message. -/
def refused (message : String) : Printed := ⟨[], [message], .exit 1⟩

def escaped (e : Fault) : Printed := ⟨[], [], .fault e⟩

/-- Prints something first. -/
def after (first : List String) (p : Printed) : Printed := { p with out := first ++ p.out }

/-- The part of it that gets out: all, or the pieces before one that cannot be encoded. Messages of
failure can always be shown. -/
def encoded (p : Printed) : Printed :=
  match p.out.findSome? Text.encodeFault? with
  | none => p
  | some f =>
    { p with
      out := p.out.takeWhile fun piece => (Text.encodeFault? piece).isNone
      ending := .fault (.unencodable f) }

end Printed

/-- A message about a failure. -/
def cross (message : String) : String := "✗ " ++ message

/-- Opens a session for a command. Settings that are at fault are reported. -/
def withSession (m : Machine) (command : Workspace → Printed × Workspace) : Printed × Machine :=
  match (Workspace.openSession).run.run (.start m) with
  | (.error e, w) =>
    if e.kind = .settings then (.refused (cross ("Config error: " ++ e.message)), w.toMachine)
    else (.escaped e, w.toMachine)
  | (.ok (), w) =>
    let (p, w) := command w
    (p, w.toMachine)

end FeatureRun.Console
