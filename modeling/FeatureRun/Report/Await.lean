import FeatureRun.Disk.Basic
import FeatureRun.Journal
import FeatureRun.Report.Reading
import FeatureRun.Text.Blank

/-!
# Waiting for a report

A runner may still be writing when it is looked for its report, so the place of the report is looked
at several times with naps in between. The first look that finds a report ends the wait. What the
looks find is given as a list of sights, the last of which stays. `levels` is how deep a report may
be nested for its reader.
-/
set_option autoImplicit false

namespace FeatureRun.Report

/-- What is found at the place of a report. -/
inductive Sight where
  | nothing
  | directory
  | file (bytes : Bytes)

/-- What stands at a path. -/
def Sight.at (disk : FileTree) (p : Path) : Sight :=
  match disk.node? p with
  | none => .nothing
  | some (.dir _) => .directory
  | some (.file bytes) => .file bytes

/-- Why a sight is not a report yet. -/
inductive NotYet where
  | missing
  | blank
  | directory
  | encoding (f : Text.Utf8.Fault)
  | malformed (e : ReportError)
  deriving DecidableEq, Repr

/-- The reason, `shown` being the path of the report. -/
def NotYet.message (shown : String) : NotYet → String
  | .missing => "report does not exist yet: " ++ shown
  | .blank => "report is empty"
  | .directory => FileFault.message ⟨.isDirectory, shown⟩
  | .encoding f => f.message
  | .malformed e => e.message

/-- What a look finds. What is too much for the reader is a fault that no further look mends. -/
inductive Look where
  | report (entries : List Entry)
  | notYet (why : NotYet)
  | excess (e : Json.Excess)
  deriving DecidableEq, Repr

def Look.ofText (levels : Nat) (s : String) : Look :=
  if Text.isAllBlank s then .notYet .blank
  else
    match read levels s with
    | .ok entries => .report entries
    | .error (.report e) => .notYet (.malformed e)
    | .error (.excess e) => .excess e

def Sight.look (levels : Nat) : Sight → Look
  | .nothing => .notYet .missing
  | .directory => .notYet .directory
  | .file bytes =>
    match Text.Utf8.decode bytes with
    | .error f => .notYet (.encoding f)
    | .ok s => .ofText levels s

/-- How a wait ended. -/
structure Waited where
  /-- The report, if there was one in time; or what was too much for the reader. -/
  found : Except Json.Excess (Option (List Entry))
  naps : Nat
  notes : List Note

/-- Puts a note in front. -/
def Waited.noting (n : Note) (w : Waited) : Waited := { w with notes := n :: w.notes }

/-- A nap comes first. -/
def Waited.afterNap (w : Waited) : Waited := { w with naps := w.naps + 1 }

/-- The sight that follows, and those after it. -/
def nextSight (now : Sight) : List Sight → Sight × List Sight
  | [] => (now, [])
  | s :: later => (s, later)

/-- The looks that are left, `attempt` being the number of the first of them. -/
def awaitFrom (levels : Nat) (shown : String) (total : Int) (attempt left : Nat) (now : Sight)
    (later : List Sight) : Waited :=
  let gaveUp : Waited :=
    ⟨.ok none, 0, [⟨.error, "Report " ++ shown ++ " did not become valid after " ++
      toString total ++ " attempts"⟩]⟩
  match left with
  | 0 => gaveUp
  | n + 1 =>
    match now.look levels with
    | .report entries =>
      ⟨.ok (some entries), 0,
        [⟨.debug, "Report is valid after " ++ toString attempt ++ " attempt(s)"⟩]⟩
    | .excess e => ⟨.error e, 0, []⟩
    | .notYet why =>
      let note : Note :=
        ⟨.trace, "Attempt " ++ toString attempt ++ "/" ++ toString total ++ ": " ++
          why.message shown⟩
      if n = 0 then gaveUp.noting note
      else
        let (now, later) := nextSight now later
        (awaitFrom levels shown total (attempt + 1) n now later).afterNap.noting note

/-- Waits for a report that is shown as `shown`, with so many looks at most. -/
def await (levels : Nat) (shown : String) (attempts : Int) (now : Sight) (later : List Sight) :
    Waited :=
  awaitFrom levels shown attempts 1 attempts.toNat now later

end FeatureRun.Report
