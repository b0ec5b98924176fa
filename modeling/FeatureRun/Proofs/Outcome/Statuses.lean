import FeatureRun.Proofs.Feature.Reading
import FeatureRun.Proofs.Outcome.Lines

/-!
# Statuses from lines alone

What status each node of a feature has, said by nothing but the lines on which outcomes passed and
failed. The names of outcomes, their failures, their order and how often they occur do not matter.

* `TestStatus`: the status of a row or a scenario.
* `GroupStatus`: the status of a rule or a feature.
* `NodeStatus`: the status of each kind of node.
* `statuses_of_lines`: the roll-up gives these statuses, to the nodes and to nothing else.
-/
set_option autoImplicit false

namespace FeatureRun

open Feature

namespace RollUp

/-- The status of a row or a scenario with these lines. -/
inductive TestStatus (os : List Outcome) (lines : List Int) : Status → Prop where
  | unmatched (h : ∀ o ∈ os, ¬IsOn lines o) : TestStatus os lines .unmatched
  | passed (hsome : ∃ o ∈ os, IsOn lines o) (hall : ∀ o ∈ os, IsOn lines o → o.passed = true) :
    TestStatus os lines .passed
  | failed (h : ∃ o ∈ os, IsOn lines o ∧ o.passed = false) : TestStatus os lines .failed

/-- The status of a rule or a feature with these scenarios. -/
inductive GroupStatus (os : List Outcome) (ss : List Scenario) : Status → Prop where
  | failed (h : ∃ s ∈ ss, TestStatus os s.lines .failed) : GroupStatus os ss .failed
  | passed (hsome : ss ≠ []) (hall : ∀ s ∈ ss, TestStatus os s.lines .passed) :
    GroupStatus os ss .passed
  | unmatched (hall : ∀ s ∈ ss, TestStatus os s.lines .unmatched) : GroupStatus os ss .unmatched
  | mixed (hnone : ∀ s ∈ ss, ¬TestStatus os s.lines .failed)
    (hpassed : ∃ s ∈ ss, TestStatus os s.lines .passed)
    (hunmatched : ∃ s ∈ ss, TestStatus os s.lines .unmatched) : GroupStatus os ss .mixed

/-- The status of a node of a feature. -/
inductive NodeStatus (file : String) (f : Feature) (os : List Outcome) :
    NodeRef → Status → Prop where
  | row {s : Scenario} {row : Row} {st : Status} (hs : s ∈ f.scenarios) (hrow : row ∈ s.rows)
    (h : TestStatus os [row.line] st) : NodeStatus file f os (.row file s.line row.line) st
  | scenario {s : Scenario} {st : Status} (hs : s ∈ f.scenarios) (h : TestStatus os s.lines st) :
    NodeStatus file f os (.scenario file s.line) st
  | rule {r : Rule} {st : Status} (hr : r ∈ f.rules) (h : GroupStatus os r.scenarios st) :
    NodeStatus file f os (.rule file r.line) st
  | feature {st : Status} (h : GroupStatus os f.scenarios st) :
    NodeStatus file f os (.feature file) st

/-- The same lines have an outcome that passed, and the same lines have one that did not. -/
def SameVerdicts (os os' : List Outcome) : Prop :=
  ∀ line passed, (∃ o ∈ os, o.line = line ∧ o.passed = passed) ↔
    ∃ o ∈ os', o.line = line ∧ o.passed = passed

variable {f : Feature} {file id : String} {s : Scenario} {ss : List Scenario} {row : Row}
  {os os' ts : List Outcome} {o : Outcome} {lines : List Int} {r : Result} {x : NodeRef}
  {st st' : Status}

/-! ## Rows and scenarios -/

/-- The status of outcomes is the one for their lines, if they are all outcomes on these lines. -/
theorem testStatus_statusOf (h : ∀ o, o ∈ ts ↔ o ∈ os ∧ IsOn lines o) :
    TestStatus os lines (statusOf ts) := by
  rw [statusOf]
  split
  · rename_i hempty
    rw [List.isEmpty_iff] at hempty
    subst hempty
    exact .unmatched fun o ho hon => absurd ((h o).2 ⟨ho, hon⟩) List.not_mem_nil
  · rename_i hne
    rw [List.isEmpty_iff] at hne
    obtain ⟨o, ho⟩ := List.exists_mem_of_ne_nil ts hne
    split
    · rename_i hall
      rw [List.all_eq_true] at hall
      exact .passed ⟨o, (h o).1 ho⟩ fun o ho hon => hall o ((h o).2 ⟨ho, hon⟩)
    · rename_i hfailed
      rw [List.all_eq_true] at hfailed
      obtain ⟨o, hfailed⟩ := Classical.not_forall.1 hfailed
      obtain ⟨ho, hpassed⟩ := Classical.not_imp.1 hfailed
      obtain ⟨hmem, hon⟩ := (h o).1 ho
      exact .failed ⟨o, hmem, hon, Bool.eq_false_iff.2 hpassed⟩

theorem TestStatus.statusOf_eq (h : TestStatus os lines st)
    (hts : ∀ o, o ∈ ts ↔ o ∈ os ∧ IsOn lines o) : statusOf ts = st := by
  cases h with
  | unmatched hnone =>
    have hnil : ts = [] := List.eq_nil_iff_forall_not_mem.2 fun o ho =>
      hnone o ((hts o).1 ho).1 ((hts o).1 ho).2
    rw [hnil]
    rfl
  | passed hsome hall =>
    obtain ⟨o, ho, hon⟩ := hsome
    have hne : ts.isEmpty = false :=
      List.isEmpty_eq_false_iff_exists_mem.2 ⟨o, (hts o).2 ⟨ho, hon⟩⟩
    have hpassed : ts.all Outcome.passed = true :=
      List.all_eq_true.2 fun o ho => hall o ((hts o).1 ho).1 ((hts o).1 ho).2
    rw [statusOf, hne, hpassed]
    rfl
  | failed hfailed =>
    obtain ⟨o, ho, hon, hfailed⟩ := hfailed
    exact statusOf_eq_failed_iff.2 ⟨o, (hts o).2 ⟨ho, hon⟩, hfailed⟩

/-- There is only one such status. -/
theorem TestStatus.unique (h : TestStatus os lines st) (h' : TestStatus os lines st') :
    st = st' := by
  have hts : ∀ o, o ∈ (os.filter fun o => IsOn lines o) ↔ o ∈ os ∧ IsOn lines o := by simp
  rw [← h.statusOf_eq hts, h'.statusOf_eq hts]

theorem testStatus_rowTest : TestStatus os [row.line] (rowTest file os s row).status :=
  testStatus_statusOf fun _ => mem_onLine_iff

theorem testStatus_scenarioTest : TestStatus os s.lines (scenarioTest file os s).status :=
  testStatus_statusOf fun _ => mem_testOutcomes_iff

/-! ## Rules and features -/

theorem scenarioTest_status_iff :
    (scenarioTest file os s).status = st ↔ TestStatus os s.lines st :=
  ⟨fun h => h ▸ testStatus_scenarioTest, fun h => testStatus_scenarioTest.unique h⟩

/-- A scenario that neither failed nor passed was not reached. -/
theorem TestStatus.cases (os : List Outcome) (s : Scenario) :
    TestStatus os s.lines .failed ∨ TestStatus os s.lines .passed ∨
      TestStatus os s.lines .unmatched := by
  have h : TestStatus os s.lines (scenarioTest "" os s).status := testStatus_scenarioTest
  generalize (scenarioTest "" os s).status = st at h
  cases h with
  | failed h => exact .inl (.failed h)
  | passed hsome hall => exact .inr (.inl (.passed hsome hall))
  | unmatched h => exact .inr (.inr (.unmatched h))

theorem groupStatus_group :
    GroupStatus os ss (group id (ss.map (scenarioTest file os))).status := by
  have hsome : ((ss.map (scenarioTest file os)).map Result.status).contains .failed = true ↔
      ∃ s ∈ ss, TestStatus os s.lines .failed := by
    simp [scenarioTest_status_iff]
  have hall : ∀ st, ((ss.map (scenarioTest file os)).map Result.status).all (· = st) = true ↔
      ∀ s ∈ ss, TestStatus os s.lines st := by
    simp [scenarioTest_status_iff]
  simp only [group, groupStatus]
  split
  · rename_i hfailed
    exact .failed (hsome.1 hfailed)
  rename_i hfailed
  have hnone : ∀ s ∈ ss, ¬TestStatus os s.lines .failed :=
    fun s hs h => hfailed (hsome.2 ⟨s, hs, h⟩)
  split
  · rename_i hpassed
    rw [Bool.and_eq_true, hall] at hpassed
    exact .passed (by simpa using hpassed.1) hpassed.2
  rename_i hpassed
  split
  · rename_i hunmatched
    exact .unmatched ((hall _).1 hunmatched)
  -- not all were missed, so one passed; and as not all passed, one was missed
  rename_i hunmatched
  rw [hall] at hunmatched
  have hreached : ∃ s ∈ ss, TestStatus os s.lines .passed := by
    obtain ⟨s, hs, hnot⟩ : ∃ s ∈ ss, ¬TestStatus os s.lines .unmatched := by simpa using hunmatched
    exact ⟨s, hs, ((TestStatus.cases os s).resolve_left (hnone s hs)).resolve_right hnot⟩
  obtain ⟨t, ht, htpassed⟩ := hreached
  have hmissed : ∃ s ∈ ss, ¬TestStatus os s.lines .passed := by
    rw [Bool.and_eq_true, hall, not_and] at hpassed
    simpa using hpassed (by simpa using List.ne_nil_of_mem ht)
  obtain ⟨s, hs, hnot⟩ := hmissed
  exact .mixed hnone ⟨t, ht, htpassed⟩
    ⟨s, hs, ((TestStatus.cases os s).resolve_left (hnone s hs)).resolve_left hnot⟩

theorem GroupStatus.unique (h : GroupStatus os ss st) (h' : GroupStatus os ss st') : st = st' := by
  have hunique : ∀ {s a b}, TestStatus os (Scenario.lines s) a → TestStatus os s.lines b →
      a = b := TestStatus.unique
  have hsome : ss ≠ [] → ∃ s, s ∈ ss := List.exists_mem_of_ne_nil ss
  cases h <;> cases h' <;> grind

/-! ## Nodes -/

theorem Rolled.nodeStatus (h : Rolled file f os x r) : NodeStatus file f os x r.status := by
  cases h with
  | row hs hrow => exact .row hs hrow testStatus_rowTest
  | scenario hs => exact .scenario hs testStatus_scenarioTest
  | rule hr => exact .rule hr groupStatus_group
  | feature => exact .feature groupStatus_group

theorem NodeStatus.exists_rolled (h : NodeStatus file f os x st) :
    ∃ r, Rolled file f os x r ∧ r.status = st := by
  cases h with
  | row hs hrow h => exact ⟨_, .row hs hrow, testStatus_rowTest.unique h⟩
  | scenario hs h => exact ⟨_, .scenario hs, testStatus_scenarioTest.unique h⟩
  | rule hr h => exact ⟨_, .rule hr, groupStatus_group.unique h⟩
  | feature h => exact ⟨_, .feature, groupStatus_group.unique h⟩

/-- The status in a result is the status of the node. -/
theorem Rolled.status_iff (hf : f.Ordered) (h : Rolled file f os x r) :
    r.status = st ↔ NodeStatus file f os x st := by
  constructor
  · rintro rfl
    exact h.nodeStatus
  · intro hst
    obtain ⟨r', hr', rfl⟩ := hst.exists_rolled
    rw [h.unique hf hr' rfl]

/-! ## What does not matter -/

theorem SameVerdicts.symm (h : SameVerdicts os os') : SameVerdicts os' os :=
  fun line passed => (h line passed).symm

/-- An outcome on a line has a counterpart there with the same verdict. -/
theorem SameVerdicts.exists_mem (h : SameVerdicts os os') (ho : o ∈ os) (hon : IsOn lines o) :
    ∃ o' ∈ os', IsOn lines o' ∧ o'.passed = o.passed := by
  obtain ⟨o', ho', hline, hpassed⟩ := (h o.line o.passed).1 ⟨o, ho, rfl, rfl⟩
  obtain ⟨line, hmem, honLine⟩ := hon
  exact ⟨o', ho', ⟨line, hmem, hline.trans honLine⟩, hpassed⟩

theorem TestStatus.congr (h : SameVerdicts os os') (hst : TestStatus os lines st) :
    TestStatus os' lines st := by
  cases hst with
  | unmatched hnone =>
    refine .unmatched fun o ho hon => ?_
    obtain ⟨o', ho', hon', -⟩ := h.symm.exists_mem ho hon
    exact hnone o' ho' hon'
  | passed hsome hall =>
    obtain ⟨o, ho, hon⟩ := hsome
    obtain ⟨o', ho', hon', -⟩ := h.exists_mem ho hon
    refine .passed ⟨o', ho', hon'⟩ fun o ho hon => ?_
    obtain ⟨o', ho', hon', hpassed⟩ := h.symm.exists_mem ho hon
    rw [← hpassed, hall o' ho' hon']
  | failed hfailed =>
    obtain ⟨o, ho, hon, hpassed⟩ := hfailed
    obtain ⟨o', ho', hon', hpassed'⟩ := h.exists_mem ho hon
    exact .failed ⟨o', ho', hon', hpassed'.trans hpassed⟩

theorem GroupStatus.congr (h : SameVerdicts os os') (hst : GroupStatus os ss st) :
    GroupStatus os' ss st := by
  have htest : ∀ {s a}, TestStatus os (Scenario.lines s) a ↔ TestStatus os' s.lines a :=
    ⟨.congr h, .congr h.symm⟩
  cases hst with
  | failed hfailed => exact .failed (by simpa only [htest] using hfailed)
  | passed hsome hall => exact .passed hsome fun s hs => htest.1 (hall s hs)
  | unmatched hall => exact .unmatched fun s hs => htest.1 (hall s hs)
  | mixed hnone hpassed hunmatched =>
    exact .mixed (fun s hs => mt htest.2 (hnone s hs)) (by simpa only [htest] using hpassed)
      (by simpa only [htest] using hunmatched)

theorem NodeStatus.congr (h : SameVerdicts os os') (hst : NodeStatus file f os x st) :
    NodeStatus file f os' x st := by
  cases hst with
  | row hs hrow hst => exact .row hs hrow (hst.congr h)
  | scenario hs hst => exact .scenario hs (hst.congr h)
  | rule hr hst => exact .rule hr (hst.congr h)
  | feature hst => exact .feature (hst.congr h)

/-! ## The roll-up -/

/-- For every feature that is read from a text and all outcomes, the roll-up has results for the
nodes of the feature and for nothing else, each with the status that the node has by the lines of
the outcomes. It has the same statuses for all outcomes that pass and fail on the same lines,
however they are called, whatever their failures, in whatever order they come and how often. -/
theorem statuses_of_lines {text path : String} (hread : Feature.read text path = some f)
    (file : String) (os : List Outcome) :
    (∀ id, id ∈ (ofOutcomes file f os).keys ↔ ∃ x, f.Refers file x ∧ x.id = id) ∧
    (∀ x, f.Refers file x → ∃ r, (ofOutcomes file f os).get? x.id = some r ∧
      ∀ st, r.status = st ↔ NodeStatus file f os x st) ∧
    ∀ os', SameVerdicts os os' → ∀ id,
      ((ofOutcomes file f os').get? id).map Result.status =
        ((ofOutcomes file f os).get? id).map Result.status := by
  have hf := ordered_read hread
  refine ⟨fun id => mem_keys_results, fun x hx => ?_, fun os' h id => ?_⟩
  · obtain ⟨r, hrolled, hget⟩ := exists_rolled hf os hx
    exact ⟨r, hget, fun st => hrolled.status_iff hf⟩
  · by_cases hid : ∃ x, f.Refers file x ∧ x.id = id
    · obtain ⟨x, hx, rfl⟩ := hid
      obtain ⟨r, hrolled, hget⟩ := exists_rolled hf os hx
      obtain ⟨r', hrolled', hget'⟩ := exists_rolled hf os' hx
      rw [hget, hget', Option.map_some, Option.map_some]
      exact congrArg some ((hrolled'.status_iff hf).2 (hrolled.nodeStatus.congr h))
    · have hnone : ∀ os, (ofOutcomes file f os).get? id = none := fun os =>
        Option.not_isSome_iff_eq_none.1 fun h =>
          hid (mem_keys_results.1 (OrderedMap.mem_keys_iff.2 h))
      rw [hnone, hnone]

/-- One row of an outline in a rule passes, and the other one fails under a name of its own: the
rule fails. -/
theorem statuses_of_lines_of_rule : ∃ f,
    Feature.read "Feature: A\nRule: R\nScenario Outline: B\nExamples:\n| x |\n| 1 |\n| 2 |"
      "a.feature" = some f ∧
    ((ofOutcomes "a.feature" f [⟨"B", some 6, true, none⟩, ⟨"C", some 7, false, none⟩]).get?
      "a.feature:rule:2").map Result.status = some .failed := by
  let outline : Scenario := ⟨"B", 3, true, [⟨6, "| 1 |"⟩, ⟨7, "| 2 |"⟩]⟩
  let f : Feature := ⟨"A", 1, "a.feature", [.rule ⟨"R", 2, [outline]⟩]⟩
  let os : List Outcome := [⟨"B", some 6, true, none⟩, ⟨"C", some 7, false, none⟩]
  have hread : Feature.read
      "Feature: A\nRule: R\nScenario Outline: B\nExamples:\n| x |\n| 1 |\n| 2 |" "a.feature" =
      some f := by decide
  have hrule : (⟨"R", 2, [outline]⟩ : Rule) ∈ f.rules := List.mem_singleton_self _
  have hfailed : TestStatus os outline.lines .failed :=
    .failed ⟨⟨"C", some 7, false, none⟩, by simp [os], ⟨7, by decide, rfl⟩, rfl⟩
  obtain ⟨r, hget, hstatus⟩ := (statuses_of_lines hread "a.feature" os).2.1 _ (.rule hrule)
  have hgroup : GroupStatus os [outline] .failed :=
    .failed ⟨outline, List.mem_singleton_self _, hfailed⟩
  refine ⟨f, hread, ?_⟩
  rw [← (hstatus .failed).2 (.rule hrule hgroup)]
  exact congrArg (Option.map Result.status) hget

end RollUp
end FeatureRun
