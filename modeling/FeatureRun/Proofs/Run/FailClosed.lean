import FeatureRun.Proofs.Catalog.Selection
import FeatureRun.Proofs.Run.Course

/-!
# Runs without an outcome

A run has no outcome if its runner is in trouble or leaves no report in time. Then every selected
node fails, each for the same one reason, and everything that shows the run says so; no other node
is touched. A run that has a report never ends this way, whatever the report says.

* `Unreported`: there is no outcome.
* `FailedClosed`: what a run without an outcome leaves.
* `failedClosed_iff_unreported`: a run is failed this way if and only if it has no outcome.
-/
set_option autoImplicit false

namespace FeatureRun.Run

open Report (Entry Stage Sight)

/-- Nothing tells the outcome of a run: its runner is in trouble, or none of the looks at the place
of the report sees a JSON array. -/
def Unreported (report : Path) (later : List Stage) (result : Except Runner.Fault Int)
    (w : Workspace) : Prop :=
  (∃ e, result = .error e) ∨ ∀ i : Nat, (i : Int) < w.settings.reportAttempts →
    ¬(Sight.at (Stage.diskAfter w.disk report i later) report).IsArray w.surroundings.levels

/-- The run of the selected nodes that started from `w` failed all of them and nothing else. -/
structure FailedClosed (selected : List String) (run : Int) (w : Workspace) (r : RunResult)
    (w' : Workspace) : Prop where
  /-- The results are those of the selected nodes, each with the same one failure. -/
  results : ∃ failure,
    r.results.entries = selected.map fun id => (id, ⟨id, .failed, [failure]⟩)
  /-- The store holds these results, -/
  kept : ∀ id ∈ selected, w'.store.get? id = r.results.get? id
  /-- and keeps what it had for all other nodes. -/
  frame : ∀ id, id ∉ selected → w'.store.rows.get? id = w.store.rows.get? id
  /-- The log says that the run ended without a report, all nodes having failed. -/
  log : w'.store.runs.head? = some ⟨run, Store.targetsText selected, .error,
    ⟨selected.length, 0, selected.length, 0⟩, w.stamp, some w.stamp⟩
  summary : r.summary = ⟨selected.length, 0, selected.length, 0⟩
  success : r.success = false
  bar : w'.status.state = .failed

variable {runner : Runner} {ids : Option (List String)} {cancelAfter : Option Nat}
  {selected : List String} {run : Int} {report : Path} {later : List Stage} {r : RunResult}
  {result : Except Runner.Fault Int} {w w₁ w₂ w' : Workspace}

/-! ## Failing all nodes -/

theorem entries_failedAlike (h : selected.Nodup) (failure : Failure) :
    (failedAlike selected failure).entries =
      selected.map fun id => (id, ⟨id, .failed, [failure]⟩) := by
  refine OrderedMap.entries_ofList ?_
  rw [List.map_map]
  exact (List.map_id selected).symm ▸ h

/-- Failing all nodes leaves what a run without an outcome leaves. -/
theorem failedClosed_of_failAll {failure : Failure} (hnodup : selected.Nodup)
    (hread : ∀ id ∈ selected, ∃ ref, NodeRef.read id = .ok ref)
    (hentered : Entered selected run w w₁) (h : failAll run selected failure w₁ = (.ok r, w')) :
    FailedClosed selected run w r w' := by
  rw [failAll_of_none hentered.fits hread (failFault?_of_failAll hentered.fits hread h)] at h
  cases h
  have hentries := entries_failedAlike hnodup failure
  constructor
  case results => exact ⟨failure, hentries⟩
  case kept =>
    intro id hid
    obtain ⟨ref, href⟩ := hread id hid
    have hresult : (failedAlike selected failure).get? id = some ⟨id, .failed, [failure]⟩ := by
      rw [← OrderedMap.mem_entries_iff, hentries]
      exact List.mem_map_of_mem hid
    have hone : ∀ t ∈ (failedAlike selected failure).values, t.id = id →
        t = ⟨id, .failed, [failure]⟩ := by
      intro t ht hte
      obtain ⟨n, -, rfl⟩ := mem_values_failedAlike.1 ht
      exact hte ▸ rfl
    have hget : (recorded w₁ (some run) (failedAlike selected failure).values).get? id =
        some ⟨id, .failed, [failure]⟩ :=
      get?_recorded (mem_values_failedAlike.2 ⟨id, hid, rfl⟩) nofun href hone
    exact hget.trans hresult.symm
  case frame =>
    intro id hid
    have hstay : (recorded w₁ (some run) (failedAlike selected failure).values).rows.get? id =
        w₁.store.rows.get? id := by
      refine rows_recorded fun t ht hte => ?_
      obtain ⟨n, hn, rfl⟩ := mem_values_failedAlike.1 ht
      exact absurd (hte ▸ hn) hid
    exact hstay.trans (by rw [hentered.store])
  case log =>
    change (ended run _ _ w₁.stamp w₁.store.runs).head? = _
    rw [hentered.store, hentered.stamp, head?_ended]
    rfl
  case summary => rfl
  case success => rfl
  case bar => rfl

/-! ## Concluding a run -/

/-- If the wait for a report does not break off, it tells whether there is an outcome. -/
theorem unreported_iff {code : Int} {entries : Option (List Entry)}
    (h : awaited report later w = .ok entries) :
    Unreported report later (.ok code) w ↔ entries = none := by
  rw [Report.await_eq_none_iff (found_of_awaited h), Unreported]
  constructor
  · rintro (⟨e, he⟩ | hnone)
    · nomatch he
    · exact hnone
  · exact .inr

/-- A report says that the run passed or failed, and nothing else. -/
theorem endStatus_statusBy (counts : Summary) (results : Results) :
    Store.endStatus counts (statusBy results) ≠ .error ∧
      Store.endStatus counts (statusBy results) ≠ .running := by
  rw [statusBy, Store.endStatus]
  split
  · exact ⟨nofun, nofun⟩
  · rw [Option.filter_none, Option.getD_none]
    split
    · exact ⟨nofun, nofun⟩
    · exact ⟨nofun, nofun⟩

/-- A run that finds a report is finished with a status of its own. -/
theorem log_of_finish {found : Results × Summary} (hentered : Entered selected run w w₁)
    (hlogged : logged w₂ = logged w₁) (h : finish run found w₂ = (.ok r, w')) :
    w'.store.runs.head? =
      some (finishedRow found.2 (statusBy found.1) w.stamp (startedRow run selected w.stamp)) := by
  obtain ⟨hruns, hstamp⟩ := Prod.mk.inj hlogged
  by_cases hcounts : CountsFit found.2
  · obtain ⟨status, hfinish⟩ := finish_ok (w := w₂) hentered.fits hcounts
    rw [hfinish] at h
    cases h
    change (ended run _ _ w₂.stamp w₂.store.runs).head? = _
    rw [hruns, hstamp, hentered.store, hentered.stamp, head?_ended]
  · rw [finish_error hcounts] at h
    nomatch h

/-- How a run is concluded, by whether it has an outcome. -/
theorem conclude_cases (hnodup : selected.Nodup)
    (hread : ∀ id ∈ selected, ∃ ref, NodeRef.read id = .ok ref)
    (hentered : Entered selected run w w₁)
    (h : conclude runner selected cancelAfter run report result w₁ = (.ok r, w')) :
    (Unreported report (laterStages runner) result w₁ ∧ FailedClosed selected run w r w') ∨
    (¬Unreported report (laterStages runner) result w₁ ∧ ∃ counts results,
      w'.store.runs.head? =
        some (finishedRow counts (statusBy results) w.stamp (startedRow run selected w.stamp))) := by
  cases result with
  | error e =>
    rw [conclude_trouble] at h
    refine .inl ⟨.inl ⟨e, rfl⟩, failedClosed_of_failAll hnodup hread ?_ h⟩
    exact hentered.of_offDisk rfl
  | ok code =>
    rcases hcollect : collect run selected cancelAfter report (laterStages runner) w₁ with
      ⟨e | ⟨_ | found⟩, w₂⟩
    · rw [conclude_of_collect_error hcollect] at h
      cases h
    · obtain ⟨entries, hawaited, hnone, hkeep⟩ := awaited_of_collect hcollect
      rw [conclude_of_collect_none hcollect] at h
      exact .inl ⟨(unreported_iff hawaited).2 (hnone.1 rfl),
        failedClosed_of_failAll hnodup hread (hentered.of_offDisk (hkeep rfl)) h⟩
    · obtain ⟨entries, hawaited, hnone, -⟩ := awaited_of_collect hcollect
      have hlogged : logged w₂ = logged w₁ := (keeps_collect _ _ _ _ _).apply hcollect
      rw [conclude_of_collect_some hcollect] at h
      refine .inr ⟨fun hun => ?_, found.2, found.1, log_of_finish hentered hlogged h⟩
      cases hnone.2 ((unreported_iff hawaited).1 hun)

/-- A run of known nodes that gives a result is failed as one without an outcome if it has none, and
only then. -/
theorem failedClosed_iff_unreported (hselect : w.catalog.select ids = .ok selected)
    (hsome : selected ≠ []) (hrun : Workspace.run runner ids cancelAfter w = (.ok r, w')) :
    ∃ targets run w₁ report result w₂,
      enter selected w = (.ok (targets, run), w₁) ∧
      release runner targets w₁ = (.ok (report, result), w₂) ∧
      (Unreported report (laterStages runner) result w₂ → FailedClosed selected run w r w') ∧
      ∃ row, w'.store.runs.head? = some row ∧ row.id = run ∧
        (row.status = .error ↔ Unreported report (laterStages runner) result w₂) := by
  rw [run_eq hselect hsome] at hrun
  obtain ⟨⟨targets, run⟩, w₁, henter, hrun⟩ := Action.exists_of_bind_ok hrun
  obtain ⟨⟨report, result⟩, w₂, hrelease, hconclude⟩ := Action.exists_of_bind_ok hrun
  have hentered : Entered selected run w w₂ := (entered_of_enter henter).of_release hrelease
  refine ⟨targets, run, w₁, report, result, w₂, henter, hrelease, ?_⟩
  rcases conclude_cases (Catalog.nodup_of_select hselect) (Catalog.exists_read_of_select hselect)
    hentered hconclude with ⟨hun, hclosed⟩ | ⟨hout, counts, results, hlog⟩
  · exact ⟨fun _ => hclosed, _, hclosed.log, rfl, fun _ => hun, fun _ => rfl⟩
  · exact ⟨fun hun => absurd hun hout, _, hlog, rfl,
      fun hstatus => absurd hstatus (endStatus_statusBy counts results).1,
      fun hun => absurd hun hout⟩

/-- A workspace on an empty disk that knows a feature with one scenario. -/
def oneScenario : Workspace :=
  { Workspace.start ⟨.dir [], .empty, .new, "/", "", 0, 0, [], [], .usual⟩ with
    catalog := Catalog.empty.readFile "/a.feature" "Feature: A\nScenario: B" }

/-- The feature is selected twice and its scenario too, and there is never a report. -/
theorem failedClosed_iff_unreported_of_silent_runner :
    ∃ r w', oneScenario.catalog.select (some ["/a.feature:scenario:2", "/a.feature", "/a.feature"]) =
        .ok ["/a.feature"] ∧
      Workspace.run (.scripted none [] (.ok 1))
        (some ["/a.feature:scenario:2", "/a.feature", "/a.feature"]) none oneScenario =
          (.ok r, w') ∧
      ∃ targets run w₁ report result w₂,
        enter ["/a.feature"] oneScenario = (.ok (targets, run), w₁) ∧
        release (.scripted none [] (.ok 1)) targets w₁ = (.ok (report, result), w₂) ∧
        (Unreported report [] result w₂ → FailedClosed ["/a.feature"] run oneScenario r w') ∧
        ∃ row, w'.store.runs.head? = some row ∧ row.id = run ∧
          (row.status = .error ↔ Unreported report [] result w₂) := by
  have hselect : oneScenario.catalog.select
      (some ["/a.feature:scenario:2", "/a.feature", "/a.feature"]) = .ok ["/a.feature"] := by rfl
  have hok : (Workspace.run (.scripted none [] (.ok 1))
      (some ["/a.feature:scenario:2", "/a.feature", "/a.feature"]) none oneScenario).1.isOk =
        true := by
    decide +kernel
  cases hrun : Workspace.run (.scripted none [] (.ok 1))
      (some ["/a.feature:scenario:2", "/a.feature", "/a.feature"]) none oneScenario with
  | mk res w' =>
    rw [hrun] at hok
    cases res with
    | error e => nomatch hok
    | ok r =>
      exact ⟨r, w', hselect, rfl,
        failedClosed_iff_unreported hselect (List.cons_ne_nil _ _) hrun⟩

end FeatureRun.Run
