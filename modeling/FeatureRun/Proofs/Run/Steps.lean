import FeatureRun.Proofs.Action
import FeatureRun.Proofs.Except
import FeatureRun.Proofs.Store
import FeatureRun.Run.Basic
import Mathlib.Data.List.TakeWhile

/-!
# What the steps of a run leave as it is

Running a program and waiting for its report change the disk and what is noted along the way, but
neither the catalog nor the store. Applying a report writes rows of the store, but not the log of
runs. So only the start and the end of a run are to be seen in that log.

* `offDisk`, `unrecorded`: what the two kinds of steps keep of a workspace.
* `offReport`: what the steps of the first kind keep around the launch.
-/
set_option autoImplicit false

namespace FeatureRun

theorem Store.exists_rows_of_keep {run : Option Int} {now : String} {r : Result} {s t : Store}
    (h : s.keep run now r = .ok t) : ∃ rows, t = { s with rows := rows } := by
  rw [keep] at h
  cases hread : NodeRef.read r.id with
  | error e =>
    rw [hread] at h
    cases h
  | ok ref =>
    simp only [hread] at h
    split at h
    · exact ⟨_, (Except.ok.inj h).symm⟩
    · cases h

/-- Recording writes rows only. -/
theorem Store.exists_rows_of_recordFrom (run : Option Int) (now : String) (count : Nat) (s : Store)
    (rs : List Result) : ∃ rows, (recordFrom run now count s rs).2 = { s with rows := rows } := by
  induction rs generalizing count s with
  | nil => exact ⟨s.rows, rfl⟩
  | cons r rs ih =>
    rw [recordFrom]
    split
    · exact ih count s
    · cases hkeep : s.keep run now r with
      | error e => exact ⟨s.rows, rfl⟩
      | ok t =>
        obtain ⟨rows, hrows⟩ := ih (count + 1) t
        obtain ⟨rows', rfl⟩ := exists_rows_of_keep hkeep
        exact ⟨rows, hrows⟩

namespace Run

open FeatureRun.Action (Keeps)
open Report (Entry Stage)

/-- What running a program and waiting for its report leave of a workspace. -/
def offDisk (w : Workspace) : Workspace :=
  { w with disk := default, journal := .new, naps := [], launches := [] }

/-- The same with the launches, which leave a record. -/
def offReport (w : Workspace) : Workspace := { w with disk := default, journal := .new, naps := [] }

/-- What applying a report leaves of a workspace. -/
def unrecorded (w : Workspace) : Workspace :=
  { w with store := { w.store with rows := .empty }, journal := .new }

theorem offDisk_of_offReport {w w' : Workspace} (h : offReport w' = offReport w) :
    offDisk w' = offDisk w :=
  show offDisk (offReport w') = offDisk (offReport w) by rw [h]

theorem keeps_offDisk {α : Type} {act : Action α} (h : Keeps offReport act) : Keeps offDisk act :=
  h.part offDisk

/-! ## Around the runner -/

theorem keeps_makeDirs (p : Path) : Keeps offReport (Workspace.makeDirs p) := fun _ => rfl

theorem keeps_reportPath : Keeps offReport reportPath :=
  .get_bind fun w => (keeps_makeDirs _).bind (fun _ => Action.keeps_pure _) w

theorem keeps_startProgram (ending : Runner.Ending) (targets : List Target) (report : String) :
    Keeps offReport (startProgram ending targets report) := by
  refine (Action.keeps_ensureRoom .glue).bind fun _ => .get_bind fun w => ?_
  cases Runner.call w.settings w.disk w.root targets report with
  | error e => rfl
  | ok c =>
    refine Keeps.bind (fun _ => rfl) (fun _ => ?_) w
    dsimp only
    split
    · exact Action.keeps_throw _
    · exact Action.keeps_ofExcept _ _

/-- Launching a runner leaves its record. -/
theorem offReport_launch (runner : Runner) (targets : List Target) (report : Path) (w : Workspace) :
    offReport (launch runner targets report w).2 =
      offReport { w with launches := ⟨targets, report.toString⟩ :: w.launches } := by
  have hrecord : (modify fun w => { w with launches := ⟨targets, report.toString⟩ :: w.launches } :
      Action PUnit) w =
        (.ok (), { w with launches := ⟨targets, report.toString⟩ :: w.launches }) := rfl
  unfold launch
  rw [Action.bind_ok hrecord]
  refine (show Keeps offReport _ from ?_) _
  cases runner with
  | program ending => exact keeps_startProgram ending targets _
  | scripted content later result =>
    cases content with
    | none => exact Action.keeps_pure result
    | some bytes =>
      refine .get_bind fun w => ?_
      cases w.disk.write report bytes <;> rfl

theorem keeps_launch (runner : Runner) (targets : List Target) (report : Path) :
    Keeps offDisk (launch runner targets report) :=
  fun w => (offDisk_of_offReport (offReport_launch runner targets report w)).trans rfl

/-- What the wait for a report comes to: a report or none, or what breaks it off. -/
def awaited (report : Path) (later : List Stage) (w : Workspace) :
    Except Fault (Option (List Entry)) :=
  match refusedNap? (waitFor report later w) w with
  | some f => .error (.nap f)
  | none => (waitFor report later w).found.mapError .excess

/-- A wait that is not broken off has found what there was. -/
theorem found_of_awaited {report : Path} {later : List Stage} {w : Workspace}
    {found : Option (List Entry)} (h : awaited report later w = .ok found) :
    (waitFor report later w).found = .ok found := by
  rw [awaited] at h
  split at h
  · cases h
  · exact mapError_eq_ok_iff.1 h

/-- Waiting for a report changes the disk and what is noted only. -/
theorem awaitReport_apply (report : Path) (later : List Stage) (w : Workspace) : ∃ w',
    awaitReport report later w = (awaited report later w, w') ∧ offReport w' = offReport w := by
  rw [awaitReport, Action.bind_ok Action.get_apply, awaited]
  cases refusedNap? (waitFor report later w) w with
  | some f => exact ⟨_, rfl, rfl⟩
  | none =>
    dsimp only
    cases (waitFor report later w).found with
    | error e => exact ⟨_, rfl, rfl⟩
    | ok found => exact ⟨_, rfl, rfl⟩

theorem keeps_awaitReport (report : Path) (later : List Stage) :
    Keeps offReport (awaitReport report later) := by
  intro w
  obtain ⟨w', hawait, hkeep⟩ := awaitReport_apply report later w
  rw [hawait]
  exact hkeep

/-! ## Selecting nodes -/

section Selection

variable {ids : Option (List String)} {w : Workspace}

theorem selection_ok {selected : List String} (h : w.catalog.select ids = .ok selected) :
    selection ids w = (.ok selected, w) := by
  rw [selection, Action.bind_ok Action.get_apply, h]
  rfl

theorem selection_error {e : SelectionFault} (h : w.catalog.select ids = .error e) :
    selection ids w = (.error (.selection e), w) := by
  rw [selection, Action.bind_ok Action.get_apply, h]
  rfl

end Selection

/-! ## Applying a report -/

theorem record_result (run : Option Int) (rs : List Result) (w : Workspace) :
    record run rs w = (((w.store.record run w.stamp rs).1.mapError .store).map fun _ => (),
      { w with store := (w.store.record run w.stamp rs).2 }) := by
  have hstore : (Action.onStore fun s => s.record run w.stamp rs) w =
      ((w.store.record run w.stamp rs).1.mapError .store,
        { w with store := (w.store.record run w.stamp rs).2 }) := rfl
  rw [record, Action.bind_ok Action.get_apply]
  cases hr : (w.store.record run w.stamp rs).1 with
  | ok count =>
    rw [hr] at hstore
    exact Action.bind_ok hstore
  | error e =>
    rw [hr] at hstore
    exact Action.bind_error hstore

theorem keeps_record (run : Option Int) (rs : List Result) : Keeps unrecorded (record run rs) := by
  intro w
  obtain ⟨rows, hrows⟩ := w.store.exists_rows_of_recordFrom run w.stamp 0 rs
  rw [record_result, Store.record, hrows]
  rfl

theorem keeps_selection (ids : Option (List String)) : Keeps unrecorded (selection ids) :=
  .get_bind fun w => Action.keeps_ofExcept _ _ w

/-- All texts of these results can be stored. -/
def Encodable (rs : List Result) : Prop :=
  (rs.flatMap Store.textsOf).findSome? Text.encodeFault? = none

theorem encodable_iff {rs : List Result} :
    Encodable rs ↔ ∀ r ∈ rs, (Store.textsOf r).findSome? Text.encodeFault? = none := by
  simp only [Encodable, List.findSome?_eq_none_iff, List.mem_flatMap]
  exact ⟨fun h r hr s hs => h s ⟨r, hr, hs⟩, fun h s ⟨r, hr, hs⟩ => h r hr s hs⟩

theorem encodable_append {rs ts : List Result} :
    Encodable (rs ++ ts) ↔ Encodable rs ∧ Encodable ts := by
  simp only [encodable_iff, List.forall_mem_append]

/-- Results with texts that can be stored are recorded as results are. -/
theorem recordEncoded_of_encodable {run : Option Int} {rs : List Result} {w : Workspace}
    (h : Encodable rs) : recordEncoded run rs w = record run rs w := by
  have hall :
      rs.takeWhile (fun r => ((Store.textsOf r).findSome? Text.encodeFault?).isNone) = rs := by
    refine List.takeWhile_eq_self_iff.2 fun r hr => ?_
    exact Option.isNone_iff_eq_none.2 (encodable_iff.1 h r hr)
  rw [recordEncoded, hall]
  rcases hrecord : record run rs w with ⟨e | ⟨⟩, w'⟩
  · exact Action.bind_error hrecord
  · exact (Action.bind_ok hrecord).trans (Action.ensureEncoded_of_none h)

theorem keeps_recordEncoded (run : Option Int) (rs : List Result) :
    Keeps unrecorded (recordEncoded run rs) :=
  (keeps_record run _).bind fun _ => Action.keeps_ensureEncoded _

section Apply

variable {keep keep' : List Result → Action Unit}

theorem keeps_applyAllWith (hkeep : ∀ rs, Keeps unrecorded (keep rs)) (report : List Entry)
    (results : Results) (counts : Summary) (ids : List String) :
    Keeps unrecorded (applyAllWith keep report results counts ids) := by
  induction ids generalizing results counts with
  | nil => exact Action.keeps_pure _
  | cons id ids ih =>
    refine .get_bind fun w => (Action.keeps_ofExcept _ _).bind (fun applied => ?_) w
    cases applied with
    | none => exact ih results counts
    | some a =>
      refine Keeps.bind (fun _ => rfl) fun _ => (hkeep _).bind fun _ => ih _ _

theorem keeps_applyReportWith (hkeep : ∀ rs, Keeps unrecorded (keep rs)) (report : List Entry)
    (ids : Option (List String)) (cancelAfter : Option Nat) :
    Keeps unrecorded (applyReportWith keep report ids cancelAfter) := by
  refine (keeps_selection ids).bind fun selected =>
    (keeps_applyAllWith hkeep _ _ _ _).bind fun found => ?_
  dsimp only
  split
  · exact Keeps.bind (fun _ => rfl) fun _ => Action.keeps_pure found
  · exact Action.keeps_pure found

/-- Where one way to keep results comes to an end, another one does, and leaves the same. -/
theorem applyAllWith_mono (hkeep : ∀ rs w w', keep rs w = (.ok (), w') → keep' rs w = (.ok (), w'))
    {report : List Entry} {results : Results} {counts : Summary} {ids : List String}
    {found : Results × Summary} {w w' : Workspace}
    (h : applyAllWith keep report results counts ids w = (.ok found, w')) :
    applyAllWith keep' report results counts ids w = (.ok found, w') := by
  induction ids generalizing results counts w with
  | nil => exact h
  | cons id ids ih =>
    rw [applyAllWith, Action.bind_ok Action.get_apply] at h ⊢
    obtain ⟨applied, w₁, happly, h⟩ := Action.exists_of_bind_ok h
    rw [Action.bind_ok happly]
    cases applied with
    | none => exact ih h
    | some a =>
      obtain ⟨_, w₂, hnote, h⟩ := Action.exists_of_bind_ok h
      obtain ⟨⟨⟩, w₃, hrecord, h⟩ := Action.exists_of_bind_ok h
      dsimp only
      rw [Action.bind_ok hnote, Action.bind_ok (hkeep _ _ _ hrecord)]
      exact ih h

variable {report : List Entry} {ids : Option (List String)} {cancelAfter : Option Nat}
  {roots : List String} {found : Results × Summary} {w w' : Workspace}

/-- A report is applied to all the roots, or to so many of them. -/
theorem applyReportWith_eq (hselect : w.catalog.select ids = .ok roots) :
    applyReportWith keep report ids cancelAfter w =
      (applyAllWith keep report .empty .empty (roots.take (cancelAfter.getD roots.length)) >>=
        fun found => do
          if (cancelAfter.getD roots.length).min roots.length < roots.length then
            Action.note [⟨.info, "Reconciliation cancelled, " ++
              toString (roots.length - (cancelAfter.getD roots.length).min roots.length) ++
              " node(s) left"⟩]
          return found) w := by
  have hcount : roots.take ((cancelAfter.getD roots.length).min roots.length) =
      roots.take (cancelAfter.getD roots.length) := List.take_eq_take_min.symm
  rw [applyReportWith, Action.bind_ok (selection_ok hselect)]
  simp only [hcount]

/-- That succeeds if going through them does, up to what is noted. -/
theorem applyReportWith_ok (hselect : w.catalog.select ids = .ok roots)
    (hall : applyAllWith keep report .empty .empty (roots.take (cancelAfter.getD roots.length)) w =
      (.ok found, w')) : ∃ journal,
      applyReportWith keep report ids cancelAfter w =
        (.ok found, { w' with journal := journal }) := by
  rw [applyReportWith_eq hselect, Action.bind_ok hall]
  split
  · exact ⟨_, rfl⟩
  · exact ⟨w'.journal, rfl⟩

theorem applyReportWith_error {e : Fault} (hselect : w.catalog.select ids = .ok roots)
    (hall : applyAllWith keep report .empty .empty (roots.take (cancelAfter.getD roots.length)) w =
      (.error e, w')) : applyReportWith keep report ids cancelAfter w = (.error e, w') := by
  rw [applyReportWith_eq hselect, Action.bind_error hall]

/-- Results that have been stored with a check of their texts have been stored. -/
theorem record_of_recordEncoded {run : Option Int} {rs : List Result}
    (h : recordEncoded run rs w = (.ok (), w')) : record run rs w = (.ok (), w') := by
  obtain ⟨⟨⟩, w₁, -, hensure⟩ := Action.exists_of_bind_ok h
  have htexts : Encodable rs := by
    refine Option.eq_none_iff_forall_ne_some.2 fun f hf => ?_
    cases (Action.ensureEncoded_of_some hf).symm.trans hensure
  exact (recordEncoded_of_encodable htexts).symm.trans h

/-- An application with a check of all texts that succeeds is one without. -/
theorem applyReport_of_encoded {run : Option Int}
    (h : applyReportWith (recordEncoded run) report ids cancelAfter w = (.ok found, w')) :
    applyReport report ids cancelAfter run w = (.ok found, w') := by
  rw [applyReport]
  cases hselect : w.catalog.select ids with
  | error e =>
    rw [applyReportWith, Action.bind_error (selection_error hselect)] at h
    cases h
  | ok roots =>
    rw [applyReportWith_eq hselect] at h ⊢
    obtain ⟨found', w₁, hall, h⟩ := Action.exists_of_bind_ok h
    rw [Action.bind_ok (applyAllWith_mono (fun _ _ _ => record_of_recordEncoded) hall)]
    exact h

end Apply

/-! ## The rows of the store -/

/-- The rows of the store after recording. -/
def recorded (w : Workspace) (run : Option Int) (rs : List Result) : Store :=
  { w.store with rows := w.store.rows.insertAll (Store.rowsOf run w.stamp rs) }

section Recorded

variable {run : Option Int} {w : Workspace} {rs : List Result} {n : String}

theorem record_apply {rs : List Result} (hrun : run.all Store.fits = true)
    (hrs : ∀ r ∈ rs, ∃ ref, NodeRef.read r.id = .ok ref) :
    record run rs w = (.ok (), { w with store := recorded w run rs }) := by
  have hstore : (Action.onStore fun s => s.record run w.stamp rs) w =
      (.ok (Store.rowsOf run w.stamp rs).length, { w with store := recorded w run rs }) := by
    rw [Action.onStore, Store.record_eq hrun hrs]
    rfl
  rw [record, Action.bind_ok Action.get_apply, Action.bind_ok hstore]
  rfl

/-- Results of which a text cannot be stored are recorded up to the first of them. -/
theorem recordEncoded_unencodable {f : Text.EncodeFault} (hrun : run.all Store.fits = true)
    (hrs : ∀ r ∈ rs, ∃ ref, NodeRef.read r.id = .ok ref)
    (h : (rs.flatMap Store.textsOf).findSome? Text.encodeFault? = some f) :
    ∃ w', recordEncoded run rs w = (.error (.unencodable f), w') := by
  have hpart : ∀ r ∈ rs.takeWhile (fun r =>
      ((Store.textsOf r).findSome? Text.encodeFault?).isNone), ∃ ref, NodeRef.read r.id = .ok ref :=
    fun r hr => hrs r ((List.takeWhile_sublist _).subset hr)
  rw [recordEncoded, Action.bind_ok (record_apply hrun hpart)]
  exact ⟨_, Action.ensureEncoded_of_some h⟩

theorem recorded_append (rs ts : List Result) (journal : Journal) :
    recorded { w with store := recorded w run rs, journal := journal } run ts =
      recorded w run (rs ++ ts) := by
  rw [recorded, recorded, recorded, Store.rowsOf_append, OrderedMap.insertAll_append]

/-- A result that is recorded, and that no other one contradicts, is found in the store. -/
theorem get?_recorded {r : Result} {ref : NodeRef} (hr : r ∈ rs) (hstatus : r.status ≠ .unmatched)
    (hread : NodeRef.read r.id = .ok ref) (hone : ∀ t ∈ rs, t.id = r.id → t = r) :
    (recorded w run rs).get? r.id = some r := by
  have hrow : (r.id, Store.rowOf run w.stamp ref.file r) ∈ Store.rowsOf run w.stamp rs :=
    Store.mem_rowsOf.2 ⟨r, hr, hstatus, ref, hread, rfl, rfl⟩
  refine Store.get?_of_row (OrderedMap.get?_insertAll_of_mem (fun row h => ?_) hrow)
  obtain ⟨t, ht, -, ref', hread', hid, rfl⟩ := Store.mem_rowsOf.1 h
  obtain rfl := hone t ht hid.symm
  rw [hread] at hread'
  cases hread'
  rfl

/-- A row stays as it was if nothing definite is recorded for its node. -/
theorem rows_recorded (h : ∀ t ∈ rs, t.id = n → t.status = .unmatched) :
    (recorded w run rs).rows.get? n = w.store.rows.get? n := by
  refine OrderedMap.get?_insertAll_of_not_mem fun hn => ?_
  obtain ⟨⟨_, row⟩, he, rfl⟩ := List.mem_map.1 hn
  obtain ⟨t, ht, hstatus, -, -, hid, -⟩ := Store.mem_rowsOf.1 he
  exact hstatus (h t ht hid.symm)

end Recorded

/-! ## The log of runs -/

/-- A run in the log when it is started, -/
def startedRow (run : Int) (targets : List String) (now : String) : Store.Run :=
  ⟨run, Store.targetsText targets, .running, .empty, now, none⟩

/-- and when it is finished. -/
def finishedRow (counts : Summary) (status : Option RunStatus) (now : String) (r : Store.Run) :
    Store.Run :=
  { r with status := Store.endStatus counts status, counts := counts, finished := some now }

/-- All counts of a summary fit into the store. -/
def CountsFit (counts : Summary) : Prop :=
  [counts.total, counts.passed, counts.failed, counts.unmatched].all Store.fits = true

instance : DecidablePred CountsFit := fun _ => inferInstanceAs (Decidable (_ = true))

/-- Why a run of these nodes cannot be entered: an id cannot be stored, or no number is left. -/
def startFault? (targets : List String) (s : Store) : Option Fault :=
  match Text.encodeFault? (Store.targetsText targets) with
  | some f => some (.unencodable f)
  | none => if Store.fits (s.lastRun + 1) then none else some (.store .full)

/-- A run that can be entered is, with the next number. -/
theorem startRun_of_none {targets : List String} {w : Workspace}
    (h : startFault? targets w.store = none) :
    startRun targets w = (.ok (w.store.lastRun + 1), { w with store := { w.store with
      runs := startedRow (w.store.lastRun + 1) targets w.stamp :: w.store.runs
      lastRun := w.store.lastRun + 1 } }) := by
  rw [startFault?] at h
  split at h
  · cases h
  · rename_i htext
    have hencoded : [Store.targetsText targets].findSome? Text.encodeFault? = none := by
      rw [List.findSome?_cons, htext, List.findSome?_nil]
    have hfits : Store.fits (w.store.lastRun + 1) = true := by simpa using h
    rw [startRun, Action.bind_ok (Action.ensureEncoded_of_none hencoded),
      Action.bind_ok Action.get_apply, Action.onStore, Store.startRun]
    simp only [if_pos hfits]
    rfl

theorem startRun_of_some {targets : List String} {e : Fault} {w : Workspace}
    (h : startFault? targets w.store = some e) : startRun targets w = (.error e, w) := by
  rw [startFault?] at h
  split at h
  · rename_i f htext
    have hencoded : [Store.targetsText targets].findSome? Text.encodeFault? = some f := by
      rw [List.findSome?_cons, htext]
    cases h
    rw [startRun, Action.bind_error (Action.ensureEncoded_of_some hencoded)]
  · rename_i htext
    have hencoded : [Store.targetsText targets].findSome? Text.encodeFault? = none := by
      rw [List.findSome?_cons, htext, List.findSome?_nil]
    split at h
    · cases h
    · rename_i hfull
      cases h
      rw [startRun, Action.bind_ok (Action.ensureEncoded_of_none hencoded),
        Action.bind_ok Action.get_apply, Action.onStore, Store.startRun]
      simp only [if_neg hfull]
      rfl

theorem fits_of_startFault? {targets : List String} {s : Store} (h : startFault? targets s = none) :
    Store.fits (s.lastRun + 1) = true := by
  rw [startFault?] at h
  split at h
  · cases h
  · simpa using h

theorem startRun_ok {targets : List String} {run : Int} {w w' : Workspace}
    (h : startRun targets w = (.ok run, w')) :
    startFault? targets w.store = none ∧ run = w.store.lastRun + 1 ∧ Store.fits run = true ∧
      w' = { w with store := { w.store with
        runs := startedRow run targets w.stamp :: w.store.runs, lastRun := run } } := by
  cases hfault : startFault? targets w.store with
  | some e =>
    rw [startRun_of_some hfault] at h
    cases h
  | none =>
    rw [startRun_of_none hfault] at h
    cases h
    exact ⟨rfl, rfl, fits_of_startFault? hfault, rfl⟩

/-- A run is finished only with counts that fit. -/
theorem finishRun_apply {run : Int} {counts : Summary} {status : Option RunStatus} {w : Workspace}
    (hrun : Store.fits run = true) (hcounts : CountsFit counts) :
    finishRun run counts status w = (.ok (), { w with store := { w.store with
      runs := w.store.runs.map fun r =>
        if r.id = run then finishedRow counts status w.stamp r else r } }) := by
  have hall : [counts.total, counts.passed, counts.failed, counts.unmatched, run].all Store.fits =
      true := by
    simpa [CountsFit, hrun, and_assoc] using hcounts
  rw [finishRun, Action.bind_ok Action.get_apply, Action.onStore, Store.finishRun, if_pos hall]
  rfl

theorem finishRun_error {run : Int} {counts : Summary} {status : Option RunStatus} {w : Workspace}
    (hcounts : ¬CountsFit counts) :
    finishRun run counts status w = (.error (.store .tooLarge), w) := by
  have hall : ¬[counts.total, counts.passed, counts.failed, counts.unmatched, run].all Store.fits =
      true := by
    intro h
    simp only [List.all_cons, Bool.and_eq_true] at h
    exact hcounts (by simp [CountsFit, h])
  rw [finishRun, Action.bind_ok Action.get_apply, Action.onStore, Store.finishRun, if_neg hall]
  rfl

end Run
end FeatureRun
