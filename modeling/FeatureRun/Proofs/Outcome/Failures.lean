import FeatureRun.Proofs.Feature.Reading
import FeatureRun.Proofs.Outcome.Lines

/-!
# No failure is lost or doubled

The failures of a node are those of the outcomes on the lines below it: line by line in document
order, and in report order on each line.

* `linesBelow`: the lines of the scenarios and rows below a node.
* `Rolled.failures_eq`: the failures of a node, in order.
* `flatMap_onLine_perm`: taking outcomes line by line takes each of them once.
* `failures_of_lines`: what this says about the roll-up of a feature.
-/
set_option autoImplicit false

namespace FeatureRun

open Feature

/-- The line of a scenario or a row. -/
def NodeRef.testLine? : NodeRef → Option Int
  | .scenario _ line => some line
  | .row _ _ line => some line
  | _ => none

/-- The lines of the scenarios and rows in the subtree of a node, in document order. -/
def Feature.linesBelow (f : Feature) (x : NodeRef) : List Int :=
  (f.below x).filterMap NodeRef.testLine?

variable {f : Feature} {file : String} {s : Scenario} {rule : Rule} {row : Row}
  {os os' : List Outcome} {o : Outcome} {lines : List Int} {r : Result} {x y : NodeRef}

/-! ## The lines below a node -/

namespace Feature

theorem testLines_scenarioRefs (file : String) (s : Scenario) :
    (scenarioRefs file s).filterMap NodeRef.testLine? = s.lines := by
  have hrows : (NodeRef.testLine? ∘ fun r : Row => .row file s.line r.line) = some ∘ Row.line := rfl
  rw [scenarioRefs, List.filterMap_cons, List.filterMap_map, hrows, List.filterMap_eq_map]
  rfl

theorem testLines_flatMap_scenarioRefs (file : String) (ss : List Scenario) :
    (ss.flatMap (scenarioRefs file)).filterMap NodeRef.testLine? = ss.flatMap Scenario.lines := by
  rw [List.filterMap_flatMap]
  exact congrArg (ss.flatMap ·) (funext (testLines_scenarioRefs file))

theorem testLines_childRefs (file : String) (c : Child) :
    (childRefs file c).filterMap NodeRef.testLine? = c.scenarios.flatMap Scenario.lines := by
  cases c with
  | scenario s => exact (testLines_scenarioRefs file s).trans (List.flatMap_singleton ..).symm
  | rule r => exact testLines_flatMap_scenarioRefs file r.scenarios

theorem linesBelow_feature (f : Feature) (file : String) :
    f.linesBelow (.feature file) = f.scenarios.flatMap Scenario.lines := by
  rw [linesBelow, below, refs, List.filterMap_cons]
  simp only [NodeRef.testLine?]
  rw [List.filterMap_flatMap, scenarios, List.flatMap_assoc]
  exact congrArg (f.children.flatMap ·) (funext (testLines_childRefs file))

theorem linesBelow_row (f : Feature) (file : String) (scenarioLine line : Int) :
    f.linesBelow (.row file scenarioLine line) = [line] := rfl

/-- The lines of the scenarios and rows of a feature are its test lines. -/
theorem mem_linesBelow_feature {line : Int} :
    line ∈ f.linesBelow (.feature file) ↔ f.TestLine line := by
  simp only [linesBelow_feature, List.mem_flatMap, Scenario.lines, List.mem_cons, List.mem_map,
    TestLine, eq_comm]

section Ordered

variable (hf : f.Ordered)

include hf

theorem linesBelow_scenario (hs : s ∈ f.scenarios) :
    f.linesBelow (.scenario file s.line) = s.lines := by
  rw [linesBelow, below_scenario hf hs, testLines_scenarioRefs]

theorem linesBelow_rule (hr : rule ∈ f.rules) :
    f.linesBelow (.rule file rule.line) = rule.scenarios.flatMap Scenario.lines := by
  rw [linesBelow, below_rule hf hr]
  exact testLines_flatMap_scenarioRefs file rule.scenarios

/-- The lines below a node are a stretch of those below every node above it. -/
theorem linesBelow_isInfix (hx : f.Refers file x) (hy : y ∈ f.above x) :
    f.linesBelow x <:+: f.linesBelow y := by
  have hpart : ∀ {α : Type} {xs : List α} (lines : α → List Int) {a : α}, a ∈ xs →
      lines a <:+: xs.flatMap lines :=
    fun _ _ ha => List.infix_of_mem_flatten (List.mem_map_of_mem ha)
  have hscenario : ∀ {s : Scenario}, s ∈ f.scenarios → y ∈ f.above (.scenario file s.line) →
      s.lines <:+: f.linesBelow y := by
    intro s hs hy
    rcases (mem_above_scenario hf hs).1 hy with rfl | ⟨rule, hr, hin, rfl⟩
    · rw [linesBelow_feature]
      exact hpart Scenario.lines hs
    · rw [linesBelow_rule hf hr]
      exact hpart Scenario.lines hin
  cases hx with
  | feature => nomatch hy
  | rule hr =>
    rw [List.mem_singleton.1 hy, linesBelow_rule hf hr, linesBelow_feature, scenarios,
      List.flatMap_assoc]
    exact hpart (fun c => c.scenarios.flatMap Scenario.lines) (mem_rules.1 hr)
  | scenario hs =>
    rw [linesBelow_scenario hf hs]
    exact hscenario hs hy
  | @row s row hs hrow =>
    have hrowLine : [row.line] <:+: s.lines := by
      obtain ⟨before, after, hlines⟩ :=
        List.append_of_mem (List.mem_cons_of_mem s.line (List.mem_map_of_mem (f := Row.line) hrow))
      exact ⟨before, after, by rw [Scenario.lines, hlines]; simp⟩
    rw [linesBelow_row]
    rcases mem_above_row.1 hy with rfl | hy
    · rwa [linesBelow_scenario hf hs]
    · exact hrowLine.trans (hscenario hs hy)

/-- They increase. -/
theorem pairwise_linesBelow (hx : f.Refers file x) : (f.linesBelow x).Pairwise (· < ·) := by
  have hall : (f.linesBelow (.feature file)).Pairwise (· < ·) := by
    rw [linesBelow_feature]
    exact lines_tests hf
  rcases mem_above_of_mem_below hf .feature hx (mem_refs.2 hx) with rfl | habove
  · exact hall
  · exact hall.sublist (linesBelow_isInfix hf hx habove).sublist

end Ordered

end Feature

namespace RollUp

/-! ## Failures line by line -/

/-- The failures of the outcomes on a line that did not pass, in report order: the failure of each
of them, or just that the scenario failed. -/
def failuresOn (os : List Outcome) (line : Int) : List Failure :=
  ((onLine os line).filter fun o => !o.passed).map fun o =>
    o.failure.getD ⟨"Scenario failed", "Scenario failed", line⟩

theorem failuresOf_onLine (os : List Outcome) (line : Int) :
    failuresOf (onLine os line) = failuresOn os line := by
  refine List.map_congr_left fun o ho => ?_
  obtain ⟨-, hline⟩ := mem_onLine.1 (List.mem_filter.1 ho).1
  have hor : Outcome.lineOr o.line 0 = line := by
    rw [hline, Outcome.lineOr, Option.filter_some]
    by_cases h : line = 0 <;> simp [h]
  rw [failureOf, hor]

theorem failuresOf_flatMap_onLine (os : List Outcome) (lines : List Int) :
    failuresOf (lines.flatMap (onLine os)) = lines.flatMap (failuresOn os) := by
  rw [failuresOf, List.filter_flatMap, List.map_flatMap]
  exact congrArg (lines.flatMap ·) (funext (failuresOf_onLine os))

theorem failures_scenarioTest :
    (scenarioTest file os s).failures = s.lines.flatMap (failuresOn os) := by
  rw [← failuresOf_flatMap_onLine, ← testOutcomes_eq]
  rfl

theorem failures_group {id : String} {ss : List Scenario} :
    (group id (ss.map (scenarioTest file os))).failures =
      (ss.flatMap Scenario.lines).flatMap (failuresOn os) := by
  rw [group, List.flatMap_map, List.flatMap_assoc]
  exact congrArg (ss.flatMap ·) (funext fun _ => failures_scenarioTest)

/-- The failures of a node are those on the lines below it. -/
theorem Rolled.failures_eq (hf : f.Ordered) (h : Rolled file f os x r) :
    r.failures = (f.linesBelow x).flatMap (failuresOn os) := by
  cases h with
  | row hs hrow =>
    rw [linesBelow_row, List.flatMap_singleton, ← failuresOf_onLine]
    rfl
  | scenario hs => rw [linesBelow_scenario hf hs, failures_scenarioTest]
  | rule hr => rw [linesBelow_rule hf hr, failures_group]
  | feature => rw [linesBelow_feature, failures_group]

/-! ## How many there are -/

/-- Outcomes taken line by line, from different lines, are each taken once. -/
theorem flatMap_onLine_perm (os : List Outcome) (h : lines.Nodup) :
    (lines.flatMap (onLine os)).Perm (os.filter fun o => IsOn lines o) := by
  have hkeys : (lines.map some).Nodup :=
    List.pairwise_map.2 (h.imp fun hne he => hne (Option.some.inj he))
  have hperm := flatMap_filter_perm Outcome.line os hkeys
  rw [List.flatMap_map] at hperm
  refine hperm.trans (.of_eq (List.filter_congr fun o _ => ?_))
  exact decide_eq_decide.2 (by simp [IsOn, eq_comm])

/-- A node has one failure for each outcome on a line below it that did not pass. -/
theorem Rolled.length_failures (hf : f.Ordered) (h : Rolled file f os x r) :
    r.failures.length = os.countP fun o => decide (IsOn (f.linesBelow x) o) && !o.passed := by
  have hnodup : (f.linesBelow x).Nodup :=
    (pairwise_linesBelow hf h.refers).imp fun hlt => Int.ne_of_lt hlt
  have hperm := (flatMap_onLine_perm os hnodup).filter fun o => !o.passed
  rw [h.failures_eq hf, ← failuresOf_flatMap_onLine, failuresOf, List.length_map, hperm.length_eq,
    List.filter_filter, List.countP_eq_length_filter]
  simp only [Bool.and_comm]

theorem failsAt_iff : FailsAt os x ↔
    ∃ line, x.testLine? = some line ∧ ∃ o ∈ onLine os line, o.passed = false := by
  cases x <;> simp [FailsAt, NodeRef.testLine?]

/-- A node failed if and only if it has failures. -/
theorem Rolled.status_eq_failed_iff_ne_nil (hf : f.Ordered) (h : Rolled file f os x r) :
    r.status = .failed ↔ r.failures ≠ [] := by
  rw [h.status_eq_failed_iff hf, ← List.length_pos_iff, h.length_failures hf, List.countP_pos_iff]
  simp only [failsAt_iff, mem_onLine, linesBelow, IsOn, List.mem_filterMap, Bool.and_eq_true,
    Bool.not_eq_true']
  grind

/-! ## Order -/

/-- Only the order of outcomes on one line matters. -/
theorem ofOutcomes_congr (hf : f.Ordered) (h : ∀ line, onLine os' line = onLine os line) :
    ofOutcomes file f os' = ofOutcomes file f os := by
  have hline : onLine os' = onLine os := funext h
  have hrow : rowTest file os' = rowTest file os := by
    funext s row
    rw [rowTest, rowTest, hline]
  have hscenario : scenarioTest file os' = scenarioTest file os := by
    funext s
    rw [scenarioTest, scenarioTest, testOutcomes_eq, testOutcomes_eq, hline]
  have htests : testsOf file os' = testsOf file os := by
    funext s
    rw [testsOf, testsOf, hrow, hscenario]
  have hchild : childTests file os' = childTests file os := by
    funext c
    cases c with
    | scenario s => exact congrFun htests s
    | rule r => rw [childTests, childTests, htests, hscenario]
  rw [results_eq hf, results_eq hf, hchild, hscenario]

/-! ## The roll-up -/

/-- For every feature that is read from a text and all outcomes: the failures of a node are those of
the outcomes on the lines below it, line by line in document order and in report order on each line;
there are as many as there are outcomes on these lines that did not pass; the node failed if and
only if there are any; and they are a stretch of the failures of every node above it. The lines
below the feature are those of all its scenarios and rows. Outcomes on different lines may come in
any order. -/
theorem failures_of_lines {text path : String} (hread : Feature.read text path = some f)
    (file : String) (os : List Outcome) :
    (∀ x, f.Refers file x → ∃ r, (ofOutcomes file f os).get? x.id = some r ∧
      r.failures = (f.linesBelow x).flatMap (failuresOn os) ∧
      r.failures.length = (os.countP fun o => decide (IsOn (f.linesBelow x) o) && !o.passed) ∧
      (r.status = .failed ↔ r.failures ≠ []) ∧
      ∀ y ∈ f.above x, ∃ q, (ofOutcomes file f os).get? y.id = some q ∧
        r.failures <:+: q.failures) ∧
    (∀ line, line ∈ f.linesBelow (.feature file) ↔ f.TestLine line) ∧
    ∀ os', (∀ line, onLine os' line = onLine os line) →
      ofOutcomes file f os' = ofOutcomes file f os := by
  have hf := ordered_read hread
  refine ⟨fun x hx => ?_, fun _ => mem_linesBelow_feature, fun os' => ofOutcomes_congr hf⟩
  obtain ⟨r, hrolled, hget⟩ := exists_rolled hf os hx
  refine ⟨r, hget, hrolled.failures_eq hf, hrolled.length_failures hf,
    hrolled.status_eq_failed_iff_ne_nil hf, fun y hy => ?_⟩
  obtain ⟨q, hq, hqget⟩ := exists_rolled hf os (hx.above hf hy)
  obtain ⟨before, after, hlines⟩ := linesBelow_isInfix hf hx hy
  refine ⟨q, hqget, before.flatMap (failuresOn os), after.flatMap (failuresOn os), ?_⟩
  rw [hrolled.failures_eq hf, hq.failures_eq hf, ← hlines, List.flatMap_append, List.flatMap_append]

/-- A scenario and a row of an outline in a rule fail, the row first in the report: the feature has
the failure of the scenario first. -/
theorem failures_of_lines_of_two : ∃ f,
    Feature.read
      "Feature: A\nScenario: S\nRule: R\nScenario Outline: B\nExamples:\n| x |\n| 1 |\n| 2 |"
      "a.feature" = some f ∧
    ((ofOutcomes "a.feature" f [⟨"B", some 8, false, none⟩, ⟨"B", some 7, true, none⟩,
        ⟨"S", some 2, false, some ⟨"Given x", "no x", 9⟩⟩]).get? "a.feature").map Result.failures =
      some [⟨"Given x", "no x", 9⟩, ⟨"Scenario failed", "Scenario failed", 8⟩] := by
  let outline : Scenario := ⟨"B", 4, true, [⟨7, "| 1 |"⟩, ⟨8, "| 2 |"⟩]⟩
  let f : Feature :=
    ⟨"A", 1, "a.feature", [.scenario ⟨"S", 2, false, []⟩, .rule ⟨"R", 3, [outline]⟩]⟩
  let os : List Outcome := [⟨"B", some 8, false, none⟩, ⟨"B", some 7, true, none⟩,
    ⟨"S", some 2, false, some ⟨"Given x", "no x", 9⟩⟩]
  have hread : Feature.read
      "Feature: A\nScenario: S\nRule: R\nScenario Outline: B\nExamples:\n| x |\n| 1 |\n| 2 |"
      "a.feature" = some f := by decide
  obtain ⟨r, hget, hfailures, -⟩ := (failures_of_lines hread "a.feature" os).1 _ .feature
  have hlines : (f.linesBelow (.feature "a.feature")).flatMap (failuresOn os) =
      [⟨"Given x", "no x", 9⟩, ⟨"Scenario failed", "Scenario failed", 8⟩] := by decide
  refine ⟨f, hread, ?_⟩
  rw [← hlines, ← hfailures]
  exact congrArg (Option.map Result.failures) hget

end RollUp
end FeatureRun
