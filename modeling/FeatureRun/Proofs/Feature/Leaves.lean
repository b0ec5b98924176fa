import FeatureRun.Feature.Leaves
import FeatureRun.Proofs.Catalog.Refs
import Mathlib.Data.List.Flatten

/-!
# The tests of a feature and how they are counted

The tests are nodes of the feature in document order, each once. Counting them sorts their statuses
into three kinds, so that the counts add up to the number of tests.

* `leafRefs`: the references to the tests.
* `tally`, `countLeaves_eq`: the counts over a list of statuses.
* `total_tally`, `failed_tally_pos_iff`: what the counts say.
-/
set_option autoImplicit false

namespace FeatureRun.Feature

variable {f : Feature} {file : String} {s : Scenario} {x : NodeRef}

/-! ## The tests as nodes -/

def scenarioLeafRefs (file : String) (s : Scenario) : List NodeRef :=
  if s.rows.isEmpty then [.scenario file s.line]
  else s.rows.map fun row => .row file s.line row.line

/-- The references to the tests, in document order. -/
def leafRefs (f : Feature) (file : String) : List NodeRef :=
  f.scenarios.flatMap (scenarioLeafRefs file)

theorem leaves_eq (f : Feature) (file : String) :
    f.leaves file = (f.leafRefs file).map NodeRef.id := by
  have hscenario : ∀ s, scenarioLeaves file s = (scenarioLeafRefs file s).map NodeRef.id := by
    intro s
    rw [scenarioLeaves, scenarioLeafRefs]
    split
    · rfl
    · rw [List.map_map]
      rfl
  rw [leaves, leafRefs, List.map_flatMap]
  exact congrArg (fun g => f.scenarios.flatMap g) (funext hscenario)

theorem scenarioLeafRefs_sublist (file : String) (s : Scenario) :
    (scenarioLeafRefs file s).Sublist (scenarioRefs file s) := by
  rw [scenarioLeafRefs, scenarioRefs]
  split
  · exact List.singleton_sublist.2 List.mem_cons_self
  · exact List.sublist_cons_self _ _

/-- The tests are among the nodes of the feature, in the same order. -/
theorem leafRefs_sublist (f : Feature) (file : String) :
    (f.leafRefs file).Sublist (f.refs file) := by
  refine List.Sublist.trans ?_ (List.sublist_cons_self _ _)
  rw [leafRefs, scenarios, List.flatMap_assoc]
  refine List.Sublist.flatMap_right _ fun c _ => ?_
  cases c with
  | scenario s =>
    rw [Child.scenarios, List.flatMap_singleton]
    exact scenarioLeafRefs_sublist file s
  | rule r =>
    exact (List.Sublist.flatMap_right _ fun s _ => scenarioLeafRefs_sublist file s).trans
      (List.sublist_cons_self _ _)

theorem refers_of_mem_leafRefs (h : x ∈ f.leafRefs file) : f.Refers file x :=
  mem_refs.1 ((leafRefs_sublist f file).subset h)

/-- How many tests there are does not depend on the id of the file. -/
theorem length_leaves (file : String) (f : Feature) : (f.leaves file).length = f.countTests := by
  have hscenario : ∀ (name : String) (s : Scenario),
      (scenarioLeaves name s).length = if s.rows.isEmpty then 1 else s.rows.length := by
    intro name s
    rw [scenarioLeaves]
    split <;> simp
  simp only [countTests, leaves, List.length_flatMap, hscenario]

/-- A feature is not a test. -/
theorem ne_feature_of_mem_leafRefs {name : String} (h : x ∈ f.leafRefs file) :
    x ≠ .feature name := by
  rintro rfl
  obtain ⟨s, -, hs⟩ := List.mem_flatMap.1 h
  rcases mem_scenarioRefs.1 ((scenarioLeafRefs_sublist file s).subset hs) with he | ⟨row, -, he⟩
  · cases he
  · cases he

/-! ## Counting -/

/-- A test that neither passed nor failed is counted as one that was not run. -/
def notRun : Status → Bool
  | .passed => false
  | .failed => false
  | _ => true

/-- The counts over a list of statuses. -/
def tally (ss : List Status) : Summary :=
  ⟨ss.length, ss.countP (· = .passed), ss.countP (· = .failed), ss.countP notRun⟩

/-- The status that a test is counted with. -/
def statusIn (results : Results) (id : String) : Status :=
  ((results.get? id).map Result.status).getD .unmatched

theorem foldl_countStatus (ss : List Status) (s : Summary) :
    ss.foldl countStatus s = ⟨s.total, s.passed + ss.countP (· = .passed),
      s.failed + ss.countP (· = .failed), s.unmatched + ss.countP notRun⟩ := by
  induction ss generalizing s with
  | nil => simp
  | cons t ss ih =>
    rw [List.foldl_cons, ih]
    simp only [List.countP_cons]
    cases t <;> simp [countStatus, notRun] <;> omega

/-- Counting the tests of a list sorts their statuses. -/
theorem countLeaves_eq (results : Results) (ids : List String) :
    countLeaves results ids = tally (ids.map (statusIn results)) := by
  have hfold : countLeaves results ids = (ids.map (statusIn results)).foldl countStatus
      { Summary.empty with total := ids.length } := by
    rw [List.foldl_map]
    rfl
  rw [hfold, foldl_countStatus, tally, List.length_map]
  simp [Summary.empty]

theorem tally_append (ss ts : List Status) : tally (ss ++ ts) = tally ss + tally ts := by
  change _ = Summary.add _ _
  simp [tally, Summary.add, List.countP_append]

/-- The counts add up to the number of tests. -/
theorem total_tally (ss : List Status) :
    (tally ss).total = (tally ss).passed + (tally ss).failed + (tally ss).unmatched := by
  induction ss with
  | nil => rfl
  | cons t ss ih =>
    simp only [tally, List.length_cons, List.countP_cons] at ih ⊢
    cases t <;> simp [notRun] <;> omega

theorem failed_tally_nonneg (ss : List Status) : 0 ≤ (tally ss).failed := Int.natCast_nonneg _

/-- Something failed if and only if it is counted. -/
theorem failed_tally_pos_iff {ss : List Status} : 0 < (tally ss).failed ↔ Status.failed ∈ ss := by
  refine Int.natCast_pos.trans ?_
  simp [List.countP_pos_iff]

end FeatureRun.Feature
