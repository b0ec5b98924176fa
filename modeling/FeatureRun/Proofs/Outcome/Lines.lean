import FeatureRun.Proofs.Catalog.Refs
import FeatureRun.Proofs.NodeId
import FeatureRun.Proofs.Outcome.RollUp
import FeatureRun.Proofs.Outcome.Verdict
import Mathlib.Data.List.Flatten

/-!
# Results read off lines

In a feature that reads from top to bottom no two scenarios or rows share a line. So what is matched
with one of them are the outcomes on its line, and the results of a feature can be read off the
lines of the outcomes, without positions in the tree.

* `onLine`, `testOutcomes`: the outcomes of a row and of a scenario.
* `results_eq`: the results of a feature in terms of them.
* `Rolled`, `exists_rolled`: the result of each kind of node.
* `Rolled.status_eq_failed_iff`: a node failed if something failed on a line below it.
-/
set_option autoImplicit false

namespace FeatureRun

open Feature

variable {f : Feature} {file id : String} {s : Scenario} {row : Row} {site site' : Site}
  {os : List Outcome} {o : Outcome} {r : Result} {x : NodeRef}

/-- The lines of a scenario: its own, then those of its rows. -/
def Scenario.lines (s : Scenario) : List Int := s.line :: s.rows.map Row.line

/-! ## Places and lines -/

theorem lines_eq (s : Scenario) : s.lines = (scenarioNodes s).map Node.line := by
  rw [Scenario.lines, scenarioNodes, List.map_cons, List.map_map]
  rfl

theorem lines_sites_of_scenario (s : Scenario) (i : Nat) : (s.sites i).map Site.line = s.lines := by
  have hrows : (s.rows.mapIdx fun j r => (⟨⟨i, some j⟩, s, some r⟩ : Site)).map Site.line =
      s.rows.map Row.line :=
    RollUp.map_mapIdx_eq (h := Site.line) (k := Row.line) (fun _ _ => rfl) s.rows
  rw [Scenario.sites, Scenario.lines, List.map_cons, hrows]
  rfl

/-- The nodes of the scenarios are among the nodes of the feature, in the same order. -/
theorem flatMap_scenarioNodes_sublist (f : Feature) :
    (f.scenarios.flatMap scenarioNodes).Sublist f.nodes := by
  rw [scenarios, List.flatMap_assoc, nodes, nodesOf]
  refine List.Sublist.flatMap_right _ fun c _ => ?_
  cases c with
  | scenario s => simp [Child.scenarios, childNodes]
  | rule r => exact List.sublist_cons_self _ _

/-- Scenarios and rows stand on increasing lines. -/
theorem lines_tests (hf : f.Ordered) : (f.scenarios.flatMap Scenario.lines).Pairwise (· < ·) := by
  have hlines : f.scenarios.flatMap Scenario.lines =
      (f.scenarios.flatMap scenarioNodes).map Node.line := by
    rw [List.map_flatMap, ← funext lines_eq]
  rw [hlines]
  exact hf.lines.sublist ((flatMap_scenarioNodes_sublist f).map Node.line)

theorem lines_sites (hf : f.Ordered) : (f.sites.map Site.line).Pairwise (· < ·) := by
  have hlines : f.sites.map Site.line = f.scenarios.flatMap Scenario.lines := by
    rw [sites, List.map_flatten, List.flatMap_def]
    exact congrArg List.flatten
      (RollUp.map_mapIdx_eq (fun i s => lines_sites_of_scenario s i) f.scenarios)
  rw [hlines]
  exact lines_tests hf

namespace Outcome

/-- An outcome belongs to what stands on its line. -/
theorem site?_eq_some_iff (hf : f.Ordered) :
    o.site? f.byLine = some site ↔ site ∈ f.sites ∧ o.line = some site.line := by
  refine ⟨mem_of_site?, fun ⟨hmem, hline⟩ => ?_⟩
  obtain ⟨found, hfound⟩ := Option.isSome_iff_exists.1 (isSome_site? hmem hline)
  obtain ⟨hmem', hline'⟩ := mem_of_site? hfound
  have hsame : found.line = site.line := Option.some.inj (hline'.symm.trans hline)
  rw [hfound, eq_of_line_eq (lines_sites hf) hmem' hmem hsame]

end Outcome

namespace RollUp

open Outcome

/-- The outcomes on a line. -/
def onLine (os : List Outcome) (line : Int) : List Outcome := os.filter fun o => o.line = some line

/-- The outcomes of a scenario: those on its own line, then those of its rows. -/
def testOutcomes (os : List Outcome) (s : Scenario) : List Outcome :=
  onLine os s.line ++ s.rows.flatMap fun row => onLine os row.line

theorem testOutcomes_eq (os : List Outcome) (s : Scenario) :
    testOutcomes os s = s.lines.flatMap (onLine os) := by
  rw [testOutcomes, Scenario.lines, List.flatMap_cons, List.flatMap_map]

theorem mem_onLine {line : Int} : o ∈ onLine os line ↔ o ∈ os ∧ o.line = some line := by
  simp [onLine]

/-- The outcome is about one of the lines. -/
def IsOn (lines : List Int) (o : Outcome) : Prop := ∃ line ∈ lines, o.line = some line

instance (lines : List Int) : DecidablePred (IsOn lines) := fun o =>
  inferInstanceAs (Decidable (∃ line ∈ lines, o.line = some line))

theorem mem_onLine_iff {line : Int} : o ∈ onLine os line ↔ o ∈ os ∧ IsOn [line] o := by
  simp [mem_onLine, IsOn]

theorem mem_testOutcomes_iff : o ∈ testOutcomes os s ↔ o ∈ os ∧ IsOn s.lines o := by
  simp only [testOutcomes_eq, IsOn, List.mem_flatMap, mem_onLine]
  grind

/-- At a position are the outcomes on the line of what stands there, in the same order. -/
theorem outcomesAt_matched (hf : f.Ordered) (h : site ∈ f.sites) :
    outcomesAt (matched f os) site.place = onLine os site.line := by
  induction os with
  | nil => rfl
  | cons o os ih =>
    rw [outcomesAt, matchesAt, matched] at ih ⊢
    rw [List.filterMap_cons, onLine, List.filter_cons]
    by_cases hline : o.line = some site.line
    · have hsite := (site?_eq_some_iff hf).2 ⟨h, hline⟩
      simp only [hsite, hline, Option.map_some, decide_true, if_true, List.filter_cons,
        List.map_cons, ih]
      rfl
    · rw [← onLine, ← ih]
      cases hfound : o.site? f.byLine with
      | none => simp [hline]
      | some t =>
        obtain ⟨hmem, hto⟩ := mem_of_site? hfound
        have hne : t.place ≠ site.place := fun he => hline (eq_of_place_eq hmem h he ▸ hto)
        simp [hline, hne]

variable {index i j : Nat} {ss : List Scenario} {cs : List Child}

theorem scenarioOutcomes_matched (hf : f.Ordered) (hs : f.scenarios[i]? = some s) :
    scenarioOutcomes (matched f os) i s = testOutcomes os s := by
  have hsites : ∀ {t}, t ∈ s.sites i → t ∈ f.sites := fun ht => mem_sites.2 ⟨i, s, hs, ht⟩
  have hown : outcomesAt (matched f os) ⟨i, none⟩ = onLine os s.line :=
    outcomesAt_matched hf (hsites (mem_sites_of_scenario.2 (.inl rfl)))
  have hrows : (s.rows.mapIdx fun j _ => outcomesAt (matched f os) ⟨i, some j⟩) =
      s.rows.map fun row => onLine os row.line := by
    refine List.ext_getElem (by simp) fun j hj _ => ?_
    rw [List.getElem_mapIdx, List.getElem_map]
    exact outcomesAt_matched hf
      (hsites (mem_sites_of_scenario.2 (.inr ⟨j, _, List.getElem?_eq_getElem _, rfl⟩)))
  rw [scenarioOutcomes, testOutcomes, hown, hrows, List.flatMap_def]

/-! ## Results of nodes -/

/-- The result of a row or a scenario with these outcomes. -/
def test (id : String) (os : List Outcome) : Result := ⟨id, statusOf os, failuresOf os⟩

def rowTest (file : String) (os : List Outcome) (s : Scenario) (row : Row) : Result :=
  test (rowId file s.line row.line) (onLine os row.line)

def scenarioTest (file : String) (os : List Outcome) (s : Scenario) : Result :=
  test (scenarioId file s.line) (testOutcomes os s)

/-- The results of a scenario and its rows. -/
def testsOf (file : String) (os : List Outcome) (s : Scenario) : List Result :=
  s.rows.map (rowTest file os s) ++ [scenarioTest file os s]

/-- The results below a feature that one of its children has. -/
def childTests (file : String) (os : List Outcome) : Child → List Result
  | .scenario s => testsOf file os s
  | .rule r =>
    r.scenarios.flatMap (testsOf file os) ++
      [group (ruleId file r.line) (r.scenarios.map (scenarioTest file os))]

/-- The scenarios stand in the feature at the positions from `index` on. -/
def StandsAt (f : Feature) (index : Nat) (ss : List Scenario) : Prop :=
  ∀ i s, ss[i]? = some s → f.scenarios[index + i]? = some s

theorem StandsAt.left {ts : List Scenario} (h : StandsAt f index (ss ++ ts)) :
    StandsAt f index ss := by
  intro i s hs
  have hi : i < ss.length := (List.getElem?_eq_some_iff.1 hs).1
  exact h i s (by rw [List.getElem?_append_left hi, hs])

theorem StandsAt.right {ts : List Scenario} (h : StandsAt f index (ss ++ ts)) :
    StandsAt f (index + ss.length) ts := by
  intro i s hs
  have hi : (ss ++ ts)[ss.length + i]? = some s := by
    rw [List.getElem?_append_right (Nat.le_add_right _ _), Nat.add_sub_cancel_left, hs]
  rw [Nat.add_assoc]
  exact h _ s hi

theorem rowResults_matched (hf : f.Ordered) (hs : f.scenarios[i]? = some s) :
    rowResults file (matched f os) i s = s.rows.map (rowTest file os s) := by
  refine List.ext_getElem (by simp [rowResults]) fun j hj _ => ?_
  have hj' : j < s.rows.length := by simpa [rowResults] using hj
  have hsite : (⟨⟨i, some j⟩, s, some s.rows[j]⟩ : Site) ∈ f.sites :=
    mem_sites.2 ⟨i, s, hs, mem_sites_of_scenario.2
      (.inr ⟨j, _, List.getElem?_eq_getElem hj', rfl⟩)⟩
  have houtcomes : outcomesAt (matched f os) ⟨i, some j⟩ = onLine os s.rows[j].line :=
    outcomesAt_matched hf hsite
  simp only [rowResults, List.getElem_mapIdx, List.getElem_map, rowResult, houtcomes]
  rfl

theorem scenarioResult_matched (hf : f.Ordered) (hs : f.scenarios[i]? = some s) :
    scenarioResult file (matched f os) i s = scenarioTest file os s := by
  rw [scenarioResult, scenarioOutcomes_matched hf hs]
  rfl

theorem scenarioResults_matched (hf : f.Ordered) (h : StandsAt f index ss) :
    scenarioResults file (matched f os) index ss = ss.map (scenarioTest file os) := by
  refine List.ext_getElem (by simp [scenarioResults]) fun i hi _ => ?_
  simp only [scenarioResults, List.getElem_mapIdx, List.getElem_map]
  exact scenarioResult_matched hf (h i _ (List.getElem?_eq_getElem _))

theorem nodeResults_matched (hf : f.Ordered) (h : StandsAt f index ss) :
    nodeResults file (matched f os) index ss = ss.flatMap (testsOf file os) := by
  rw [nodeResults, List.flatMap_def]
  congr 1
  refine List.ext_getElem (by simp) fun i hi _ => ?_
  have hs := h i _ (List.getElem?_eq_getElem (by simpa using hi))
  simp only [List.getElem_mapIdx, List.getElem_map, rowResults_matched hf hs,
    scenarioResult_matched hf hs]
  rfl

theorem childResults_matched (hf : f.Ordered) (h : StandsAt f index (cs.flatMap Child.scenarios)) :
    childResults file (matched f os) index cs = cs.flatMap (childTests file os) := by
  induction cs generalizing index with
  | nil => rfl
  | cons c cs ih =>
    rw [List.flatMap_cons] at h
    have hrest := ih h.right
    cases c with
    | scenario s =>
      have hhere : StandsAt f index [s] := h.left
      have htail : childResults file (matched f os) (index + 1) cs =
        cs.flatMap (childTests file os) := hrest
      rw [childResults, nodeResults_matched hf hhere, htail, List.flatMap_singleton]
      rfl
    | rule r =>
      have hhere : StandsAt f index r.scenarios := h.left
      have htail : childResults file (matched f os) (index + r.scenarios.length) cs =
        cs.flatMap (childTests file os) := hrest
      rw [childResults, nodeResults_matched hf hhere, scenarioResults_matched hf hhere, htail,
        List.flatMap_cons, childTests, List.append_assoc]
      rfl

/-- The results of a feature, read off the lines of the outcomes. -/
theorem results_eq (hf : f.Ordered) (file : String) (os : List Outcome) :
    ofOutcomes file f os = .ofList ((f.children.flatMap (childTests file os) ++
      [group file (f.scenarios.map (scenarioTest file os))]).map fun r => (r.id, r)) := by
  have hall : StandsAt f 0 f.scenarios := fun i s hs => by rwa [Nat.zero_add]
  rw [ofOutcomes, results, childResults_matched hf hall, scenarioResults_matched hf hall]

/-- The result that a feature's roll-up has for each of its nodes. -/
inductive Rolled (file : String) (f : Feature) (os : List Outcome) : NodeRef → Result → Prop where
  | row {s : Scenario} {row : Row} (hs : s ∈ f.scenarios) (hrow : row ∈ s.rows) :
    Rolled file f os (.row file s.line row.line) (rowTest file os s row)
  | scenario {s : Scenario} (hs : s ∈ f.scenarios) :
    Rolled file f os (.scenario file s.line) (scenarioTest file os s)
  | rule {r : Rule} (hr : r ∈ f.rules) : Rolled file f os (.rule file r.line)
      (group (ruleId file r.line) (r.scenarios.map (scenarioTest file os)))
  | feature : Rolled file f os (.feature file)
      (group file (f.scenarios.map (scenarioTest file os)))

theorem exists_rolled_of_mem_testsOf (hs : s ∈ f.scenarios) (h : r ∈ testsOf file os s) :
    ∃ x, Rolled file f os x r := by
  rcases List.mem_append.1 h with h | h
  · obtain ⟨row, hrow, rfl⟩ := List.mem_map.1 h
    exact ⟨_, .row hs hrow⟩
  · rw [List.mem_singleton.1 h]
    exact ⟨_, .scenario hs⟩

theorem Rolled.id_eq (h : Rolled file f os x r) : r.id = x.id := by
  cases h <;> rfl

theorem Rolled.refers (h : Rolled file f os x r) : f.Refers file x := by
  cases h with
  | row hs hrow => exact .row hs hrow
  | scenario hs => exact .scenario hs
  | rule hr => exact .rule hr
  | feature => exact .feature

/-- Every result is that of a node with its id. -/
theorem exists_rolled_of_get? (hf : f.Ordered) (h : (ofOutcomes file f os).get? id = some r) :
    ∃ x, x.id = id ∧ Rolled file f os x r := by
  rw [results_eq hf] at h
  obtain ⟨r, hr, he⟩ := List.mem_map.1 (OrderedMap.mem_of_get?_ofList h)
  cases he
  obtain ⟨x, hx⟩ : ∃ x, Rolled file f os x r := by
    rcases List.mem_append.1 hr with hr | hr
    · obtain ⟨c, hc, hr⟩ := List.mem_flatMap.1 hr
      cases c with
      | scenario s =>
        exact exists_rolled_of_mem_testsOf (mem_scenarios.2 (.inl (mem_looseScenarios.2 hc))) hr
      | rule rule =>
        have hrule := mem_rules.2 hc
        rcases List.mem_append.1 hr with hr | hr
        · obtain ⟨s, hs, hr⟩ := List.mem_flatMap.1 hr
          exact exists_rolled_of_mem_testsOf (mem_scenarios.2 (.inr ⟨rule, hrule, hs⟩)) hr
        · rw [List.mem_singleton.1 hr]
          exact ⟨_, .rule hrule⟩
    · rw [List.mem_singleton.1 hr]
      exact ⟨_, .feature⟩
  exact ⟨x, hx.id_eq.symm, hx⟩

/-- No node has two results, since nothing else of its kind stands on its line. -/
theorem Rolled.unique {r' : Result} (hf : f.Ordered) (h : Rolled file f os x r) {y : NodeRef}
    (h' : Rolled file f os y r') (hxy : x = y) : r = r' := by
  cases h with
  | row hs hrow =>
    cases h' with
    | row hs' hrow' =>
      obtain ⟨-, hline, hrowLine⟩ := NodeRef.row.inj hxy
      obtain rfl := scenario_eq_of_line hf hs hs' hline
      obtain rfl := eq_of_line_eq (lines_rows hf hs) hrow hrow' hrowLine
      rfl
    | _ => nomatch hxy
  | scenario hs =>
    cases h' with
    | scenario hs' =>
      obtain rfl := scenario_eq_of_line hf hs hs' (NodeRef.scenario.inj hxy).2
      rfl
    | _ => nomatch hxy
  | rule hr =>
    cases h' with
    | rule hr' =>
      obtain rfl := eq_of_line_eq (lines_rules hf) hr hr' (NodeRef.rule.inj hxy).2
      rfl
    | _ => nomatch hxy
  | feature =>
    cases h' with
    | feature => rfl
    | _ => nomatch hxy

/-- The roll-up has the result of a node under its id. -/
theorem Rolled.get?_eq (hf : f.Ordered) (h : Rolled file f os x r) :
    (ofOutcomes file f os).get? x.id = some r := by
  have hkey : x.id ∈ (ofOutcomes file f os).keys := mem_keys_results.2 ⟨x, h.refers, rfl⟩
  obtain ⟨r', hr'⟩ := Option.isSome_iff_exists.1 (OrderedMap.mem_keys_iff.1 hkey)
  obtain ⟨y, hid, hy⟩ := exists_rolled_of_get? hf hr'
  have hxy : x = y :=
    NodeRef.eq_of_id_eq (h.refers.file_eq.trans hy.refers.file_eq.symm) hid.symm
  rw [hr', h.unique hf hy hxy]

theorem exists_rolled (hf : f.Ordered) (os : List Outcome) (hx : f.Refers file x) :
    ∃ r, Rolled file f os x r ∧ (ofOutcomes file f os).get? x.id = some r := by
  have hrolled : ∃ r, Rolled file f os x r := by
    cases hx with
    | feature => exact ⟨_, .feature⟩
    | rule hr => exact ⟨_, .rule hr⟩
    | scenario hs => exact ⟨_, .scenario hs⟩
    | row hs hrow => exact ⟨_, .row hs hrow⟩
  obtain ⟨r, hr⟩ := hrolled
  exact ⟨r, hr, hr.get?_eq hf⟩

/-! ## What failed -/

/-- Some outcome on the line of a row or scenario did not pass. -/
def FailsAt (os : List Outcome) : NodeRef → Prop
  | .row _ _ n => ∃ o ∈ onLine os n, o.passed = false
  | .scenario _ n => ∃ o ∈ onLine os n, o.passed = false
  | _ => False

/-- A scenario fails with its own outcomes or those of its rows. -/
theorem status_scenarioTest_eq_failed_iff :
    (scenarioTest file os s).status = .failed ↔ ∃ y ∈ scenarioRefs file s, FailsAt os y := by
  have hstatus : (scenarioTest file os s).status = .failed ↔
      ∃ o ∈ testOutcomes os s, o.passed = false := statusOf_eq_failed_iff
  rw [hstatus]
  constructor
  · rintro ⟨o, ho, hfailed⟩
    rcases List.mem_append.1 ho with ho | ho
    · exact ⟨_, mem_scenarioRefs.2 (.inl rfl), o, ho, hfailed⟩
    · obtain ⟨row, hrow, ho⟩ := List.mem_flatMap.1 ho
      exact ⟨_, mem_scenarioRefs.2 (.inr ⟨row, hrow, rfl⟩), o, ho, hfailed⟩
  · rintro ⟨y, hy, hfails⟩
    rcases mem_scenarioRefs.1 hy with rfl | ⟨row, hrow, rfl⟩
    · obtain ⟨o, ho, hfailed⟩ := hfails
      exact ⟨o, List.mem_append_left _ ho, hfailed⟩
    · obtain ⟨o, ho, hfailed⟩ := hfails
      exact ⟨o, List.mem_append_right _ (List.mem_flatMap.2 ⟨row, hrow, ho⟩), hfailed⟩

theorem status_group_tests_eq_failed_iff {ss : List Scenario} :
    (group id (ss.map (scenarioTest file os))).status = .failed ↔
      ∃ s ∈ ss, ∃ y ∈ scenarioRefs file s, FailsAt os y := by
  rw [group, groupStatus_eq_failed_iff]
  simp only [List.mem_map, exists_exists_and_eq_and, status_scenarioTest_eq_failed_iff]

/-- A node failed if and only if something failed on a line in its subtree. -/
theorem Rolled.status_eq_failed_iff (hf : f.Ordered) (h : Rolled file f os x r) :
    r.status = .failed ↔ ∃ y ∈ f.below x, FailsAt os y := by
  cases h with
  | row hs hrow =>
    refine statusOf_eq_failed_iff.trans ?_
    simp only [below, List.mem_singleton, exists_eq_left]
    rfl
  | scenario hs => rw [status_scenarioTest_eq_failed_iff, below_scenario hf hs]
  | rule hr =>
    rw [status_group_tests_eq_failed_iff, below_rule hf hr]
    constructor
    · rintro ⟨s, hs, y, hy, hfails⟩
      exact ⟨y, mem_ruleRefs.2 (.inr ⟨s, hs, hy⟩), hfails⟩
    · rintro ⟨y, hy, hfails⟩
      rcases mem_ruleRefs.1 hy with rfl | ⟨s, hs, hy⟩
      · exact hfails.elim
      · exact ⟨s, hs, y, hy, hfails⟩
  | feature =>
    rw [status_group_tests_eq_failed_iff]
    constructor
    · rintro ⟨s, hs, y, hy, hfails⟩
      exact ⟨y, mem_refs_of_mem_scenarioRefs hs hy, hfails⟩
    · rintro ⟨y, hy, hfails⟩
      cases mem_refs.1 hy with
      | feature => exact hfails.elim
      | rule => exact hfails.elim
      | scenario hs => exact ⟨_, hs, _, mem_scenarioRefs.2 (.inl rfl), hfails⟩
      | row hs hrow => exact ⟨_, hs, _, mem_scenarioRefs.2 (.inr ⟨_, hrow, rfl⟩), hfails⟩

end RollUp
end FeatureRun
