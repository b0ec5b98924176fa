import FeatureRun.Journal
import FeatureRun.Report.Place

/-!
# What looking for a file's entry notes

Every entry that is compared is noted, up to the first that fits.
-/
set_option autoImplicit false

namespace FeatureRun.Report

def comparisonNote (target : String) (e : Entry) (same : Bool) : Note :=
  ⟨.debug, "Comparing " ++ target ++ " with report path " ++ e.uri ++ ": " ++
    if same then "True" else "False"⟩

def entryNotes (target : String) : List Entry → List Note
  | [] => []
  | e :: es =>
    if sameFile target e.uri then [comparisonNote target e true]
    else comparisonNote target e false :: entryNotes target es

end FeatureRun.Report
