import FeatureRun.Feature.Line
import FeatureRun.Journal

/-!
# What reading a feature file notes

A further `Feature:` line is passed over with a note, and so is a text without one.
-/
set_option autoImplicit false

namespace FeatureRun.Feature

def shownPath (path : String) : String := if path = "" then "<text>" else path

/-- The lines, counted from `number`, that start with `Feature:`. -/
def featureLines (number : Nat) : List Line → List Nat
  | [] => []
  | .feature _ :: rest => number :: featureLines (number + 1) rest
  | _ :: rest => featureLines (number + 1) rest

def readNotes (text path : String) : List Note :=
  match featureLines 1 (linesOf text) with
  | [] => [⟨.debug, "No Feature: line found in " ++ shownPath path⟩]
  | _ :: extra =>
    extra.map fun n =>
      ⟨.debug, "Ignoring extra Feature: at line " ++ toString n ++ " in " ++ shownPath path⟩

end FeatureRun.Feature
