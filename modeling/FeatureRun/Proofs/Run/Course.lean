import FeatureRun.Proofs.OrderedMap
import FeatureRun.Proofs.Report.Await
import FeatureRun.Proofs.Run.Steps

/-!
# The course of a run

A run of selected nodes has three legs: it is entered into the store, its runner is let go, and it is
concluded by what the runner has left. What each leg does is said here as far as the row of the run
is concerned.

* `enter`, `release`, `conclude`, `run_eq`: a run is these three one after another.
* `importReport_eq`: an import in the same way.
* `enter_ok`: the row of a run when it has been entered.
* `failAll_ok`, `finish_ok`: the two ways to conclude a run, both of which finish its row.
-/
set_option autoImplicit false

namespace FeatureRun.Run

open FeatureRun.Action (Keeps)
open Report (Entry Stage)

/-- Enters a run into the store: what the runner will be asked for, and the number of the run. -/
def enter (selected : List String) : Action (List Target × Int) := do
  let root := (← get).root
  let targets ← selected.mapM fun id => Action.ofExcept .id (Catalog.targetFor root id)
  let name ← nameOf selected
  Action.display fun b => b.running (some name)
  let run ← startRun selected
  return (targets, run)

/-- Lets the runner go: the place of its report, and its exit code or its trouble. -/
def release (runner : Runner) (targets : List Target) :
    Action (Path × Except Runner.Fault Int) := do
  let report ← reportPath
  let result ← launch runner targets report
  return (report, result)

/-- Concludes a run whose runner has ended. -/
def conclude (runner : Runner) (selected : List String) (cancelAfter : Option Nat) (run : Int)
    (report : Path) : Except Runner.Fault Int → Action RunResult
  | .error e => do
    Action.note [⟨.error, "Runner failed: " ++ e.message⟩]
    failAll run selected ⟨"Run failed", e.message, 0⟩
  | .ok code => do
    match ← collect run selected cancelAfter report (laterStages runner) with
    | none => failAll run selected (noReport code)
    | some found => finish run found

variable {runner : Runner} {ids : Option (List String)} {cancelAfter : Option Nat}
  {selected : List String} {run : Int} {report : Path} {targets : List Target} {w w' : Workspace}

/-- A run of something is entered, let go and concluded. -/
theorem run_eq (hselect : w.catalog.select ids = .ok selected) (hsome : selected ≠ []) :
    Workspace.run runner ids cancelAfter w =
      (enter selected >>= fun e => release runner e.1 >>= fun l =>
        conclude runner selected cancelAfter e.2 l.1 l.2) w := by
  have hempty : ¬selected.isEmpty = true := fun h => hsome (List.isEmpty_iff.1 h)
  rw [Workspace.run, Action.bind_ok (selection_ok hselect)]
  simp only [if_neg hempty, enter, release, bind_assoc, pure_bind]
  rfl

theorem run_of_select_nil (h : w.catalog.select ids = .ok []) :
    Workspace.run runner ids cancelAfter w =
      (.ok ⟨true, "Nothing to run", .empty, .empty⟩, w) := by
  rw [Workspace.run, Action.bind_ok (selection_ok h)]
  rfl

theorem run_of_select_error {e : SelectionFault} (h : w.catalog.select ids = .error e) :
    Workspace.run runner ids cancelAfter w = (.error (.selection e), w) := by
  rw [Workspace.run, Action.bind_error (selection_error h)]

section Import

variable {path : String} {entries : List Entry}

/-- An import on nodes that can be selected is entered, applied and finished. -/
theorem importReport_eq (hread : readReport path w = .ok entries)
    (hselect : w.catalog.select ids = .ok selected) :
    Workspace.importReport path ids w =
      (startRun selected >>= fun run =>
        applyReportWith (recordEncoded (some run)) entries (some selected) none >>=
          finish run) w := by
  rw [Workspace.importReport, Action.bind_ok Action.get_apply, hread,
    Action.bind_ok (Action.ofExcept_ok _ _), Action.bind_ok (selection_ok hselect)]

theorem importReport_of_read_error {e : Fault} (h : readReport path w = .error e) :
    Workspace.importReport path ids w = (.error e, w) := by
  rw [Workspace.importReport, Action.bind_ok Action.get_apply, h]
  rfl

theorem importReport_of_select_error {e : SelectionFault} (hread : readReport path w = .ok entries)
    (h : w.catalog.select ids = .error e) :
    Workspace.importReport path ids w = (.error (.selection e), w) := by
  rw [Workspace.importReport, Action.bind_ok Action.get_apply, hread,
    Action.bind_ok (Action.ofExcept_ok _ _), Action.bind_error (selection_error h)]

end Import

/-! ## Entering -/

theorem keeps_targets (root : Path) (ids : List String) :
    Keeps id (ids.mapM fun n => Action.ofExcept .id (Catalog.targetFor root n)) :=
  Action.keeps_mapM fun _ => Action.keeps_ofExcept _ _

theorem keeps_nameOf (selected : List String) : Keeps id (nameOf selected) := by
  match selected with
  | [] => exact Action.keeps_pure _
  | [id] => exact .get_bind fun w => Action.keeps_ofExcept _ _ w
  | _ :: _ :: _ => exact Action.keeps_pure _

/-- A run that has been entered has a new row on top of the log; only the status bar shows it. -/
theorem enter_ok (h : enter selected w = (.ok (targets, run), w')) :
    Store.fits run = true ∧ ∃ status, w' = { w with
      status := status
      store := { w.store with
        runs := startedRow run selected w.stamp :: w.store.runs, lastRun := run } } := by
  rw [enter, Action.bind_ok Action.get_apply] at h
  obtain ⟨_, w₁, htargets, h⟩ := Action.exists_of_bind_ok h
  obtain ⟨name, w₂, hname, h⟩ := Action.exists_of_bind_ok h
  rw [Action.bind_ok (Action.display_apply _)] at h
  obtain ⟨_, _, hstart, h⟩ := Action.exists_of_bind_ok h
  cases h
  obtain rfl : w₁ = w := (keeps_targets w.root selected).apply htargets
  obtain rfl : w₂ = w₁ := (keeps_nameOf selected).apply hname
  obtain ⟨-, -, hfits, rfl⟩ := startRun_ok hstart
  exact ⟨hfits, _, rfl⟩

/-- The workspace `w'` is at a time of a run at which the row of the run is new, while everything
else in the store is as it was in `w`, before the run. -/
structure Entered (selected : List String) (run : Int) (w w' : Workspace) : Prop where
  fits : Store.fits run = true
  store : w'.store = { w.store with
    runs := startedRow run selected w.stamp :: w.store.runs, lastRun := run }
  stamp : w'.stamp = w.stamp
  catalog : w'.catalog = w.catalog

theorem entered_of_enter (h : enter selected w = (.ok (targets, run), w')) :
    Entered selected run w w' := by
  obtain ⟨hfits, status, rfl⟩ := enter_ok h
  exact ⟨hfits, rfl, rfl, rfl⟩

theorem entered_of_startRun (h : startRun selected w = (.ok run, w')) :
    Entered selected run w w' := by
  obtain ⟨-, -, hfits, rfl⟩ := startRun_ok h
  exact ⟨hfits, rfl, rfl, rfl⟩

/-- Nothing changes about that as long as the store stays. -/
theorem Entered.of_offDisk {w₁ w₂ : Workspace} (h : Entered selected run w w₁)
    (hkeep : offDisk w₂ = offDisk w₁) : Entered selected run w w₂ :=
  ⟨h.fits, (congrArg (fun w => w.store) hkeep).trans h.store,
    (congrArg (fun w => w.stamp) hkeep).trans h.stamp,
    (congrArg (fun w => w.catalog) hkeep).trans h.catalog⟩

/-! ## Letting the runner go -/

theorem keeps_release (runner : Runner) (targets : List Target) :
    Keeps offDisk (release runner targets) :=
  (keeps_offDisk keeps_reportPath).bind fun _ => (keeps_launch runner targets _).bind fun _ =>
    Action.keeps_pure _

theorem Entered.of_release {res : Except Fault (Path × Except Runner.Fault Int)}
    {w₁ w₂ : Workspace} (h : Entered selected run w w₁)
    (hrelease : release runner targets w₁ = (res, w₂)) : Entered selected run w w₂ :=
  h.of_offDisk ((keeps_release runner targets).apply hrelease)

/-! ## Concluding -/

section Conclude

variable {failure : Failure} {found : Results × Summary} {later : List Stage}

/-- The log of runs when one of them has been finished. -/
def ended (run : Int) (counts : Summary) (status : Option RunStatus) (now : String)
    (runs : List Store.Run) : List Store.Run :=
  runs.map fun r => if r.id = run then finishedRow counts status now r else r

/-- The row of the last run stays on top of the log. -/
theorem head?_ended (run : Int) (counts : Summary) (status : Option RunStatus)
    (now started : String) (runs : List Store.Run) :
    (ended run counts status now (startedRow run selected started :: runs)).head? =
      some (finishedRow counts status now (startedRow run selected started)) := by
  rw [ended, List.map_cons, if_pos (show (startedRow run selected started).id = run from rfl)]
  rfl

/-- All nodes failing alike. -/
def failedAlike (selected : List String) (failure : Failure) : Results :=
  .ofList (selected.map fun id => (id, ⟨id, .failed, [failure]⟩))

def countFailed (selected : List String) : Summary := ⟨selected.length, 0, selected.length, 0⟩

theorem failAll_eq (run : Int) (selected : List String) (failure : Failure) :
    failAll run selected failure = do
      recordEncoded (some run) (failedAlike selected failure).values
      finishRun run (countFailed selected) (some .error)
      Action.display fun b => b.failed none
      return ⟨false, failure.label ++ ": " ++ failure.message, countFailed selected,
        failedAlike selected failure⟩ := rfl

theorem mem_values_failedAlike {r : Result} :
    r ∈ (failedAlike selected failure).values ↔ ∃ id ∈ selected, r = ⟨id, .failed, [failure]⟩ := by
  rw [OrderedMap.mem_values_iff]
  constructor
  · rintro ⟨n, hn⟩
    obtain ⟨id, hid, he⟩ := List.mem_map.1 (OrderedMap.mem_of_get?_ofList hn)
    cases he
    exact ⟨n, hid, rfl⟩
  · rintro ⟨id, hid, rfl⟩
    refine ⟨id, OrderedMap.get?_insertAll_of_mem (fun r hr => ?_) (List.mem_map_of_mem hid)⟩
    obtain ⟨n, -, he⟩ := List.mem_map.1 hr
    cases he
    rfl

theorem exists_read_failedAlike (hread : ∀ id ∈ selected, ∃ ref, NodeRef.read id = .ok ref) :
    ∀ r ∈ (failedAlike selected failure).values, ∃ ref, NodeRef.read r.id = .ok ref := by
  intro r hr
  obtain ⟨id, hid, rfl⟩ := mem_values_failedAlike.1 hr
  exact hread id hid

/-- Why the nodes cannot all be failed: a text cannot be stored, or there are too many of them. -/
def failFault? (selected : List String) (failure : Failure) : Option Fault :=
  match ((failedAlike selected failure).values.flatMap Store.textsOf).findSome?
    Text.encodeFault? with
  | some f => some (.unencodable f)
  | none => if CountsFit (countFailed selected) then none else some (.store .tooLarge)

/-- Why all nodes of a run without an outcome fail. -/
def troubleOf : Except Runner.Fault Int → Failure
  | .error e => ⟨"Run failed", e.message, 0⟩
  | .ok code => noReport code

/-- Every selected node fails, and the run is finished. -/
theorem failAll_of_none (hrun : Store.fits run = true)
    (hread : ∀ id ∈ selected, ∃ ref, NodeRef.read id = .ok ref)
    (h : failFault? selected failure = none) :
    failAll run selected failure w =
      (.ok ⟨false, failure.label ++ ": " ++ failure.message, countFailed selected,
          failedAlike selected failure⟩,
        { w with
          status := w.status.failed none
          store := { recorded w (some run) (failedAlike selected failure).values with
            runs := ended run (countFailed selected) (some .error) w.stamp w.store.runs } }) := by
  rw [failFault?] at h
  split at h
  · cases h
  rename_i htexts
  have hcounts : CountsFit (countFailed selected) := by simpa using h
  have hfits : (some run).all Store.fits = true := hrun
  have hrecord := (recordEncoded_of_encodable (w := w) htexts).trans
    (record_apply hfits (exists_read_failedAlike hread))
  rw [failAll_eq, Action.bind_ok hrecord, Action.bind_ok (finishRun_apply hrun hcounts),
    Action.bind_ok (Action.display_apply _)]
  rfl

/-- If there is a fault in that, the run is not finished. -/
theorem failAll_of_some {e : Fault} (hrun : Store.fits run = true)
    (hread : ∀ id ∈ selected, ∃ ref, NodeRef.read id = .ok ref)
    (h : failFault? selected failure = some e) :
    ∃ w', failAll run selected failure w = (.error e, w') ∧ unrecorded w' = unrecorded w := by
  have hfits : (some run).all Store.fits = true := hrun
  rw [failFault?] at h
  split at h
  · rename_i f htexts
    cases h
    obtain ⟨w', hrecord⟩ := recordEncoded_unencodable (w := w) hfits
      (exists_read_failedAlike hread) htexts
    refine ⟨w', ?_, (keeps_recordEncoded _ _).apply hrecord⟩
    rw [failAll_eq, Action.bind_error hrecord]
  · rename_i htexts
    have hcounts : ¬CountsFit (countFailed selected) := fun hcounts => by
      rw [if_pos hcounts] at h
      cases h
    rw [if_neg hcounts] at h
    cases h
    have hrecord := (recordEncoded_of_encodable (w := w) htexts).trans
      (record_apply hfits (exists_read_failedAlike hread))
    refine ⟨_, ?_, (keeps_recordEncoded _ _).apply hrecord⟩
    rw [failAll_eq, Action.bind_ok hrecord, Action.bind_error (finishRun_error hcounts)]

/-- There is a result exactly if there is no fault. -/
theorem failFault?_of_failAll {r : RunResult} (hrun : Store.fits run = true)
    (hread : ∀ id ∈ selected, ∃ ref, NodeRef.read id = .ok ref)
    (h : failAll run selected failure w = (.ok r, w')) : failFault? selected failure = none := by
  refine Option.eq_none_iff_forall_ne_some.2 fun e he => ?_
  obtain ⟨w₁, hfail, -⟩ := failAll_of_some (w := w) hrun hread he
  cases hfail.symm.trans h

/-- The status that a report gives to a run, unless its counts do. -/
def statusBy (results : Results) : Option RunStatus :=
  if results.values.any fun r => r.status = .failed then some .failed else none

/-- What the status bar shows of a run with a report. -/
def shownBy (found : Results × Summary) (b : StatusBar) : StatusBar :=
  if found.1.values.any fun r => r.status = .failed then
    b.failed (if found.2.failed = 0 then none else some found.2.failed)
  else b.passed

/-- A run with a report is finished, if the counts fit. -/
theorem finish_apply (hrun : Store.fits run = true) (hcounts : CountsFit found.2) :
    finish run found w =
      (.ok ⟨!found.1.values.any fun r => r.status = .failed, found.2.describe, found.2, found.1⟩,
        { w with
          status := shownBy found w.status
          store := { w.store with
            runs := ended run found.2 (statusBy found.1) w.stamp w.store.runs } }) := by
  rw [finish, Action.bind_ok (finishRun_apply hrun hcounts),
    Action.bind_ok (Action.display_apply _)]
  rfl

theorem finish_ok (hrun : Store.fits run = true) (hcounts : CountsFit found.2) :
    ∃ status, finish run found w =
      (.ok ⟨!found.1.values.any fun r => r.status = .failed, found.2.describe, found.2, found.1⟩,
        { w with
          status := status
          store := { w.store with
            runs := ended run found.2 (statusBy found.1) w.stamp w.store.runs } }) :=
  ⟨_, finish_apply hrun hcounts⟩

theorem finish_error (hcounts : ¬CountsFit found.2) :
    finish run found w = (.error (.store .tooLarge), w) := by
  change (finishRun run found.2 (statusBy found.1) >>= _) w = _
  rw [Action.bind_error (finishRun_error hcounts)]

/-! ## Collecting the report -/

theorem collect_error {e : Fault} (h : awaited report later w = .error e) :
    ∃ w', collect run selected cancelAfter report later w = (.error e, w') ∧
      offDisk w' = offDisk w := by
  obtain ⟨w₁, hawait, hkeep⟩ := awaitReport_apply report later w
  rw [h] at hawait
  refine ⟨{ w₁ with disk := w₁.disk.unlink report }, ?_, offDisk_of_offReport hkeep⟩
  rw [collect, Action.endingWith, Action.bind_error hawait]

theorem collect_none (h : awaited report later w = .ok none) :
    ∃ w', collect run selected cancelAfter report later w = (.ok none, w') ∧
      offDisk w' = offDisk w := by
  obtain ⟨w₁, hawait, hkeep⟩ := awaitReport_apply report later w
  rw [h] at hawait
  refine ⟨{ w₁ with disk := w₁.disk.unlink report }, ?_, offDisk_of_offReport hkeep⟩
  rw [collect, Action.endingWith, Action.bind_ok hawait]
  rfl

/-- A report that is found is applied, whatever comes of that. -/
theorem collect_some {entries : List Entry} (h : awaited report later w = .ok (some entries)) :
    ∃ w₁, offDisk w₁ = offDisk w ∧ ∀ r w₂,
      applyReportWith (recordEncoded (some run)) entries (some selected) cancelAfter w₁ =
        (r, w₂) →
      collect run selected cancelAfter report later w =
        (r.map some, { w₂ with disk := w₂.disk.unlink report }) := by
  obtain ⟨w₁, hawait, hkeep⟩ := awaitReport_apply report later w
  rw [h] at hawait
  refine ⟨w₁, offDisk_of_offReport hkeep, fun r w₂ happly => ?_⟩
  rw [collect, Action.endingWith, Action.bind_ok hawait]
  cases r with
  | ok found =>
    simp only
    rw [Action.bind_ok happly]
    rfl
  | error e =>
    simp only
    rw [Action.bind_error happly]
    rfl

theorem conclude_trouble {e : Runner.Fault} :
    conclude runner selected cancelAfter run report (.error e) w =
      failAll run selected ⟨"Run failed", e.message, 0⟩
        { w with journal := w.journal.add [⟨.error, "Runner failed: " ++ e.message⟩] } := by
  rw [conclude, Action.bind_ok (Action.note_apply _)]

theorem conclude_of_collect_none {code : Int}
    (h : collect run selected cancelAfter report (laterStages runner) w = (.ok none, w')) :
    conclude runner selected cancelAfter run report (.ok code) w =
      failAll run selected (noReport code) w' := by
  rw [conclude, Action.bind_ok h]

theorem conclude_of_collect_some {code : Int}
    (h : collect run selected cancelAfter report (laterStages runner) w = (.ok (some found), w')) :
    conclude runner selected cancelAfter run report (.ok code) w = finish run found w' := by
  rw [conclude, Action.bind_ok h]

theorem conclude_of_collect_error {code : Int} {e : Fault}
    (h : collect run selected cancelAfter report (laterStages runner) w = (.error e, w')) :
    conclude runner selected cancelAfter run report (.ok code) w = (.error e, w') := by
  rw [conclude, Action.bind_error h]

/-- A report is collected exactly if the wait finds one; if not, the store stays as it is. -/
theorem awaited_of_collect {r : Option (Results × Summary)}
    (h : collect run selected cancelAfter report later w = (.ok r, w')) :
    ∃ entries, awaited report later w = .ok entries ∧ (r = none ↔ entries = none) ∧
      (r = none → offDisk w' = offDisk w) := by
  cases hfound : awaited report later w with
  | error e =>
    obtain ⟨w₁, hcollect, -⟩ := collect_error hfound
    rw [hcollect] at h
    nomatch h
  | ok entries =>
    refine ⟨entries, rfl, ?_⟩
    cases entries with
    | none =>
      obtain ⟨w₁, hcollect, hkeep⟩ := collect_none hfound
      rw [hcollect] at h
      cases h
      exact ⟨⟨fun _ => rfl, fun _ => rfl⟩, fun _ => hkeep⟩
    | some entries =>
      obtain ⟨w₁, -, hcollect⟩ := collect_some hfound
      rw [hcollect _ _ rfl] at h
      obtain ⟨found, -, rfl⟩ := exists_of_map_ok (Prod.mk.inj h).1
      exact ⟨⟨nofun, nofun⟩, nofun⟩

/-- What the log of runs says, and the time at which a run would be finished. -/
def logged (w : Workspace) : List Store.Run × String := (w.store.runs, w.stamp)

theorem logged_of_offDisk (h : offDisk w' = offDisk w) : logged w' = logged w :=
  show logged (offDisk w') = logged (offDisk w) by rw [h]

theorem logged_of_unrecorded (h : unrecorded w' = unrecorded w) : logged w' = logged w :=
  show logged (unrecorded w') = logged (unrecorded w) by rw [h]

theorem keeps_collect (run : Int) (selected : List String) (cancelAfter : Option Nat)
    (report : Path) (later : List Stage) :
    Keeps logged (collect run selected cancelAfter report later) := by
  intro w
  cases hfound : awaited report later w with
  | error e =>
    obtain ⟨w', hcollect, hkeep⟩ := collect_error hfound
    rw [hcollect]
    exact logged_of_offDisk hkeep
  | ok entries =>
    cases entries with
    | none =>
      obtain ⟨w', hcollect, hkeep⟩ := collect_none hfound
      rw [hcollect]
      exact logged_of_offDisk hkeep
    | some entries =>
      obtain ⟨w₁, hkeep, hcollect⟩ := collect_some hfound
      rw [hcollect _ _ rfl]
      exact (logged_of_unrecorded
        (keeps_applyReportWith (keeps_recordEncoded _) entries _ cancelAfter w₁)).trans
        (logged_of_offDisk hkeep)

end Conclude

end FeatureRun.Run
