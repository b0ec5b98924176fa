import FeatureRun.Proofs.OrderedMap
import FeatureRun.Proofs.Outcome.Place
import FeatureRun.Run.Apply
import Mathlib.Data.List.Forall2

/-!
# Two verdicts on a feature

A feature is judged by the whole entry of its file, and by what its scenarios add up to. The two
verdicts differ only over outcomes that stand on no line of a scenario or row: the entry counts
them, the tree does not.

* `fileFailed_iff`: the verdict by the entry.
* `status_group_eq_failed_iff`: the verdict by the tree.
* `forall₂_messages`: every outcome that did not pass has its own message.
-/
set_option autoImplicit false

namespace FeatureRun

open Report (Entry)
open Run (outcomesFor featureResult)

namespace Outcome

/-- A message about an outcome names the scenario and repeats what is wrong with it. -/
def Tells (o : Outcome) (m : Failure) : Prop :=
  ∃ failure, o.failure = some failure ∧ m.label = failure.label ∧ m.line = failure.line ∧
    m.message = "Scenario: " ++ o.name ++ " (line " ++ lineText o.line ++ ")\n\n" ++
      failure.label ++ "\n\n" ++ failure.message

variable {report : List Entry} {file : String} {o : Outcome} {os : List Outcome}

/-- Something is wrong with an outcome exactly if it did not pass. -/
theorem passed_of_mem_outcomesFor (h : o ∈ outcomesFor report file) :
    o.passed = o.failure.isNone := by
  unfold outcomesFor at h
  cases hentry : Report.entryFor? report file with
  | none => simp [hentry] at h
  | some e =>
    simp only [hentry, Option.map_some, Option.getD_some, ofEntry, List.mem_map] at h
    obtain ⟨element, -, rfl⟩ := h
    rfl

/-- The entry of a file fails it if some outcome did not pass. -/
theorem fileFailed_iff :
    fileFailed (some report) file = true ↔ ∃ o ∈ outcomesFor report file, o.passed = false := by
  cases hentry : Report.entryFor? report file with
  | none => simp [fileFailed, outcomesFor, hentry]
  | some e => simp [fileFailed, outcomesFor, hentry, anyFailed, ofEntry]

/-- There is one message for each outcome that did not pass, in the same order. -/
theorem forall₂_messages (h : ∀ o ∈ os, o.passed = o.failure.isNone) :
    List.Forall₂ Tells (os.filter fun o => !o.passed) (messages os) := by
  induction os with
  | nil => exact .nil
  | cons o os ih =>
    have hrest := ih fun o' ho' => h o' (List.mem_cons_of_mem _ ho')
    have ho := h o List.mem_cons_self
    unfold messages at hrest ⊢
    cases hfailure : o.failure with
    | none =>
      simp only [hfailure, Option.isNone_none] at ho
      simpa [message?, ho] using hrest
    | some failure =>
      simp only [hfailure, Option.isNone_some] at ho
      have htells : Tells o ⟨failure.label, "Scenario: " ++ o.name ++ " (line " ++ lineText o.line ++
          ")\n\n" ++ failure.label ++ "\n\n" ++ failure.message, failure.line⟩ :=
        ⟨failure, hfailure, rfl, rfl, rfl⟩
      simpa [message?, ho, hfailure] using List.Forall₂.cons htells hrest

theorem messages_ne_nil (h : ∀ o ∈ os, o.passed = o.failure.isNone) (ho : o ∈ os)
    (hfailed : o.passed = false) : messages os ≠ [] := by
  intro hnil
  have hall := forall₂_messages h
  rw [hnil, List.forall₂_nil_right_iff] at hall
  have hmem : o ∈ os.filter fun o => !o.passed := by simp [ho, hfailed]
  simp [hall] at hmem

end Outcome

namespace RollUp

open Outcome

variable {f : Feature} {os : List Outcome} {rs : List Result} {ms : List Match} {r : Result}

theorem statusOf_eq_failed_iff : statusOf os = .failed ↔ ∃ o ∈ os, o.passed = false := by
  have hall : os.all Outcome.passed = false ↔ ∃ o ∈ os, o.passed = false := by simp
  rw [← hall, statusOf]
  cases os with
  | nil => simp
  | cons o os => cases (o :: os).all Outcome.passed <;> simp

theorem groupStatus_eq_failed_iff : groupStatus rs = .failed ↔ ∃ r ∈ rs, r.status = .failed := by
  have hcontains : (rs.map Result.status).contains .failed = true ↔
      ∃ r ∈ rs, r.status = .failed := by simp
  rw [← hcontains]
  simp only [groupStatus]
  grind

theorem mem_scenarioResults {file : String} {ss : List Scenario} :
    r ∈ scenarioResults file ms 0 ss ↔ ∃ i s, ss[i]? = some s ∧ r = scenarioResult file ms i s := by
  simp only [scenarioResults, List.mem_mapIdx, List.getElem?_eq_some_iff, Nat.zero_add]
  grind

/-- The tree fails a feature if some outcome on a test line did not pass. -/
theorem status_group_eq_failed_iff (f : Feature) (os : List Outcome) (file : String) :
    (group file (scenarioResults file (matched f os) 0 f.scenarios)).status = .failed ↔
      ∃ o ∈ os, o.passed = false ∧ ∃ line, o.line = some line ∧ f.TestLine line := by
  rw [group, groupStatus_eq_failed_iff]
  constructor
  · rintro ⟨r, hr, hstatus⟩
    obtain ⟨i, s, hs, rfl⟩ := mem_scenarioResults.1 hr
    obtain ⟨o, ho, hfailed⟩ := statusOf_eq_failed_iff.1 hstatus
    obtain ⟨hmem, hline⟩ := exists_scenarioOutcomes_iff.1 ⟨i, s, hs, ho⟩
    exact ⟨o, hmem, hfailed, hline⟩
  · rintro ⟨o, ho, hfailed, hline⟩
    obtain ⟨i, s, hs, hmem⟩ := exists_scenarioOutcomes_iff.2 ⟨ho, hline⟩
    exact ⟨_, mem_scenarioResults.2 ⟨i, s, hs, rfl⟩, statusOf_eq_failed_iff.2 ⟨o, hmem, hfailed⟩⟩

/-- The result of a feature is found under the id of its file, whatever the ids of its nodes. -/
theorem get?_ofOutcomes_file (file : String) (f : Feature) (os : List Outcome) :
    (ofOutcomes file f os).get? file =
      some (group file (scenarioResults file (matched f os) 0 f.scenarios)) := by
  simp only [ofOutcomes, results, OrderedMap.ofList, List.map_append, OrderedMap.insertAll_append]
  exact (OrderedMap.get?_insert _ _ _ _).trans (if_pos rfl)

end RollUp

namespace Outcome

variable {report : List Entry} {file : String}

/-- A feature that its entry fails has the messages about its outcomes as failures. -/
theorem featureResult_of_fileFailed (f : Feature) (h : fileFailed (some report) file = true) :
    featureResult report file f = ⟨file, .failed, messages (outcomesFor report file)⟩ := by
  obtain ⟨o, ho, hfailed⟩ := fileFailed_iff.1 h
  have hsome := messages_ne_nil (fun _ => passed_of_mem_outcomesFor) ho hfailed
  simp [featureResult, h, hsome]

/-- The two verdicts on a feature agree but for outcomes that stand on no line of a scenario or row:
its entry fails it if any outcome did not pass, with one message for each of these, and the tree
fails it if such an outcome stands on a test line. The entry is looked for under one name of the
file, the result is found under another, which may be the same. -/
theorem verdicts_agree (f : Feature) (report : List Entry) (file id : String) :
    (fileFailed (some report) file = true ↔ ∃ o ∈ outcomesFor report file, o.passed = false) ∧
    (fileFailed (some report) file = true →
      messages (outcomesFor report file) ≠ [] ∧
      List.Forall₂ Tells ((outcomesFor report file).filter fun o => !o.passed)
        (messages (outcomesFor report file)) ∧
      featureResult report file f = ⟨file, .failed, messages (outcomesFor report file)⟩) ∧
    ∃ r, (RollUp.ofOutcomes id f (outcomesFor report file)).get? id = some r ∧
      (r.status = .failed ↔ ∃ o ∈ outcomesFor report file, o.passed = false ∧
        ∃ line, o.line = some line ∧ f.TestLine line) ∧
      (r.status = .failed → fileFailed (some report) file = true) ∧
      ((∀ o ∈ outcomesFor report file, ∃ line, o.line = some line ∧ f.TestLine line) →
        (fileFailed (some report) file = true ↔ r.status = .failed)) := by
  have hgroup := RollUp.status_group_eq_failed_iff f (outcomesFor report file) id
  refine ⟨fileFailed_iff, fun h => ?_, _, RollUp.get?_ofOutcomes_file id f _, hgroup, ?_, ?_⟩
  · obtain ⟨o, ho, hfailed⟩ := fileFailed_iff.1 h
    exact ⟨messages_ne_nil (fun _ => passed_of_mem_outcomesFor) ho hfailed,
      forall₂_messages fun _ => passed_of_mem_outcomesFor, featureResult_of_fileFailed f h⟩
  · intro hstatus
    obtain ⟨o, ho, hfailed, -⟩ := hgroup.1 hstatus
    exact fileFailed_iff.2 ⟨o, ho, hfailed⟩
  · intro hlines
    rw [fileFailed_iff, hgroup]
    constructor
    · rintro ⟨o, ho, hfailed⟩
      exact ⟨o, ho, hfailed, hlines o ho⟩
    · rintro ⟨o, ho, hfailed, -⟩
      exact ⟨o, ho, hfailed⟩

end Outcome
end FeatureRun
