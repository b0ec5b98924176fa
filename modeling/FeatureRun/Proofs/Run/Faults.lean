import FeatureRun.Proofs.Run.FailClosed

/-!
# How runs and imports fail

A run or an import ends with a fault exactly if one of its steps cannot be taken. Applying a report
fails only because of what was given to it; what else fails lies in the machine around a run.

* `Fails`, `run_error_iff`: what makes a run fail, and with which fault.
* `Refuses`, `importReport_error_iff`: the same for an import.
* `throws_applyReport`: a report that is not applied has run into an id that cannot be read.
-/
set_option autoImplicit false

namespace FeatureRun.Run

open FeatureRun.Action (Throws)
open Report (Entry)

variable {runner : Runner} {ids : Option (List String)} {cancelAfter : Option Nat}
  {selected : List String} {run : Int} {targets : List Target} {report : Path}
  {result : Except Runner.Fault Int} {path : String} {e : Fault} {w w₁ w₂ w' : Workspace}

/-! ## Entering -/

/-- Nodes whose ids can be read have targets. -/
theorem exists_targets (root : Path) (hread : ∀ id ∈ selected, ∃ ref, NodeRef.read id = .ok ref)
    (w : Workspace) : ∃ targets,
      (selected.mapM fun id => Action.ofExcept .id (Catalog.targetFor root id)) w =
        (.ok targets, w) := by
  induction selected with
  | nil => exact ⟨[], rfl⟩
  | cons id ids ih =>
    obtain ⟨⟨ref, href⟩, hrest⟩ := List.forall_mem_cons.1 hread
    obtain ⟨targets, htargets⟩ := ih hrest
    have hid : Action.ofExcept .id (Catalog.targetFor root id) w =
        (.ok (Catalog.targetOf root ref), w) := by
      rw [Catalog.targetFor, href]
      rfl
    rw [List.mapM_cons, Action.bind_ok hid, Action.bind_ok htargets]
    exact ⟨_, rfl⟩

theorem exists_name (hread : ∀ id ∈ selected, ∃ ref, NodeRef.read id = .ok ref) (w : Workspace) :
    ∃ name, nameOf selected w = (.ok name, w) := by
  match selected with
  | [] => exact ⟨_, rfl⟩
  | [id] =>
    obtain ⟨ref, href⟩ := hread id List.mem_cons_self
    rw [nameOf, Action.bind_ok Action.get_apply, Catalog.label, Catalog.resolve, href]
    exact ⟨_, rfl⟩
  | _ :: _ :: _ => exact ⟨_, rfl⟩

/-- A run of nodes whose ids can be read is entered, unless there is a fault in that. -/
theorem enter_cases (hread : ∀ id ∈ selected, ∃ ref, NodeRef.read id = .ok ref) (w : Workspace) :
    (startFault? selected w.store = none ∧
      ∃ targets run w', enter selected w = (.ok (targets, run), w')) ∨
    ∃ e w', startFault? selected w.store = some e ∧ enter selected w = (.error e, w') := by
  obtain ⟨targets, htargets⟩ := exists_targets w.root hread w
  obtain ⟨name, hname⟩ := exists_name hread w
  rw [enter, Action.bind_ok Action.get_apply, Action.bind_ok htargets, Action.bind_ok hname,
    Action.bind_ok (Action.display_apply _)]
  cases hfault : startFault? selected w.store with
  | none =>
    have hstart := startRun_of_none
      (w := { w with status := w.status.running (some name) }) hfault
    rw [Action.bind_ok hstart]
    exact .inl ⟨rfl, _, _, _, rfl⟩
  | some e =>
    have hstart := startRun_of_some
      (w := { w with status := w.status.running (some name) }) hfault
    rw [Action.bind_error hstart]
    exact .inr ⟨e, _, rfl, rfl⟩

/-! ## Applying a report -/

/-- Recording fails only at an id that cannot be read. -/
theorem throws_record (hrun : (some run).all Store.fits = true) (rs : List Result) :
    Throws (fun e => e.kind.isValue = true) (record (some run) rs) := by
  have hstore : ∀ (rs : List Result) (now : String) (count : Nat) (s : Store) (e : StoreFault),
      (Store.recordFrom (some run) now count s rs).1 = .error e → ∃ n, e = .badId n := by
    intro rs now
    induction rs with
    | nil =>
      intro _ _ _ h
      cases h
    | cons r rs ih =>
      intro count s e h
      rw [Store.recordFrom] at h
      split at h
      · exact ih _ _ _ h
      · rw [Store.keep] at h
        cases hread : NodeRef.read r.id with
        | error n =>
          simp only [hread] at h
          exact ⟨n, (Except.error.inj h).symm⟩
        | ok ref =>
          simp only [hread, if_pos hrun] at h
          exact ih _ _ _ h
  intro w e w' h
  rw [record_result] at h
  obtain ⟨he, -⟩ := Prod.mk.inj h
  cases hr : (w.store.record (some run) w.stamp rs).1 with
  | ok count =>
    rw [hr] at he
    cases he
  | error s =>
    rw [hr] at he
    obtain ⟨n, rfl⟩ := hstore rs w.stamp 0 w.store s hr
    cases he
    rfl

theorem throws_recordEncoded (hrun : (some run).all Store.fits = true) (rs : List Result) :
    Throws (fun e => e.kind.isValue = true) (recordEncoded (some run) rs) := by
  refine (throws_record hrun _).bind fun _ w e w' h => ?_
  cases htexts : (rs.flatMap Store.textsOf).findSome? Text.encodeFault? with
  | none =>
    rw [Action.ensureEncoded_of_none htexts] at h
    cases h
  | some f =>
    rw [Action.ensureEncoded_of_some htexts] at h
    cases h
    rfl

theorem throws_applyAllWith {keep : List Result → Action Unit}
    (hkeep : ∀ rs, Throws (fun e => e.kind.isValue = true) (keep rs)) (entries : List Entry)
    (results : Results) (counts : Summary) (ids : List String) :
    Throws (fun e => e.kind.isValue = true) (applyAllWith keep entries results counts ids) := by
  induction ids generalizing results counts with
  | nil => exact Action.throws_pure _
  | cons id ids ih =>
    have happly : ∀ w : Workspace, Throws (fun e => e.kind.isValue = true)
        (Action.ofExcept .id (applyTo w.catalog w.root entries id)) := fun w =>
      Action.throws_ofExcept (fun _ => by rfl) _
    refine .get_bind fun w => .bind (happly w) fun applied => ?_
    cases applied with
    | none => exact ih _ _
    | some a =>
      refine .bind (fun _ _ _ h => ?_) fun _ => .bind (hkeep _) fun _ => ih _ _
      rw [Action.note_apply] at h
      nomatch h

/-- A report is applied, or an id could not be read, or a text could not be stored. -/
theorem throws_applyReport (hrun : Store.fits run = true) (entries : List Entry)
    (ids : Option (List String)) (cancelAfter : Option Nat) :
    Throws (fun e => e.kind.isValue = true)
      (applyReportWith (recordEncoded (some run)) entries ids cancelAfter) := by
  have hselection : Throws (fun e => e.kind.isValue = true) (selection ids) :=
    .get_bind fun w => Action.throws_ofExcept (fun _ => by rfl) _
  refine hselection.bind fun selected =>
    .bind (throws_applyAllWith (throws_recordEncoded hrun) entries _ _ _) fun found => ?_
  dsimp only
  split
  · refine .bind (fun _ _ _ h => ?_) fun _ => Action.throws_pure _
    rw [Action.note_apply] at h
    nomatch h
  · exact Action.throws_pure _

/-! ## Runs -/

/-- What there is to know of a run whose runner has ended: nothing, if the runner is in trouble. -/
def answer (runner : Runner) (report : Path) (w : Workspace) :
    Except Runner.Fault Int → Except Fault (Option (List Entry))
  | .error _ => .ok none
  | .ok _ => awaited report (laterStages runner) w

/-- Why a run that has been entered fails, and with which fault. -/
inductive Stops (runner : Runner) (selected : List String) (cancelAfter : Option Nat) (run : Int)
    (targets : List Target) (w : Workspace) : Fault → Prop where
  /-- There is no directory for the report, or the runner fails other than by its own trouble. -/
  | release {e : Fault} {w' : Workspace} (h : release runner targets w = (.error e, w')) :
    Stops runner selected cancelAfter run targets w e
  /-- The wait for the report breaks off: the report is too much for the reader, or no nap of the
  length asked for can be taken. -/
  | wait {report : Path} {result : Except Runner.Fault Int} {e : Fault} {w₁ : Workspace}
    (hrelease : release runner targets w = (.ok (report, result), w₁))
    (h : answer runner report w₁ result = .error e) :
    Stops runner selected cancelAfter run targets w e
  /-- There is a report, but not all nodes have ids that can be read, or not all texts can be
  stored. -/
  | reconcile {report : Path} {result : Except Runner.Fault Int} {entries : List Entry} {e : Fault}
    {w₁ w₂ : Workspace} (hrelease : release runner targets w = (.ok (report, result), w₁))
    (hfound : answer runner report w₁ result = .ok (some entries))
    (h : collect run selected cancelAfter report (laterStages runner) w₁ = (.error e, w₂)) :
    Stops runner selected cancelAfter run targets w e
  /-- There is no outcome, but the nodes cannot all be failed. -/
  | nodes {report : Path} {result : Except Runner.Fault Int} {e : Fault} {w₁ : Workspace}
    (hrelease : release runner targets w = (.ok (report, result), w₁))
    (hout : answer runner report w₁ result = .ok none)
    (h : failFault? selected (troubleOf result) = some e) :
    Stops runner selected cancelAfter run targets w e
  /-- There is a report, and too many tests below the nodes for the store. -/
  | tests {report : Path} {result : Except Runner.Fault Int} {entries : List Entry}
    {found : Results × Summary} {w₁ w₂ : Workspace}
    (hrelease : release runner targets w = (.ok (report, result), w₁))
    (hfound : answer runner report w₁ result = .ok (some entries))
    (hcollect : collect run selected cancelAfter report (laterStages runner) w₁ =
      (.ok (some found), w₂))
    (h : ¬CountsFit found.2) : Stops runner selected cancelAfter run targets w (.store .tooLarge)

/-- Failing all nodes fails itself exactly if there is a fault in that. -/
theorem failAll_error_iff {failure : Failure} (hrun : Store.fits run = true)
    (hread : ∀ id ∈ selected, ∃ ref, NodeRef.read id = .ok ref) :
    (∃ w', failAll run selected failure w = (.error e, w')) ↔
      failFault? selected failure = some e := by
  refine ⟨fun ⟨w', h⟩ => ?_, fun h => ?_⟩
  · cases hfault : failFault? selected failure with
    | none =>
      rw [failAll_of_none hrun hread hfault] at h
      cases h
    | some e' =>
      obtain ⟨w₁, hfail, -⟩ := failAll_of_some (w := w) hrun hread hfault
      rw [Except.error.inj (Prod.mk.inj (hfail.symm.trans h)).1]
  · obtain ⟨w', hfail, -⟩ := failAll_of_some (w := w) hrun hread h
    exact ⟨w', hfail⟩

theorem finish_error_iff {found : Results × Summary} (hrun : Store.fits run = true) :
    (∃ w', finish run found w = (.error e, w')) ↔ ¬CountsFit found.2 ∧ e = .store .tooLarge := by
  by_cases hcounts : CountsFit found.2
  · rw [finish_apply hrun hcounts]
    exact ⟨fun ⟨_, h⟩ => (nomatch h), fun h => absurd hcounts h.1⟩
  · rw [finish_error hcounts]
    refine ⟨fun ⟨_, h⟩ => ⟨hcounts, ?_⟩, ?_⟩
    · exact (Except.error.inj (Prod.mk.inj h).1).symm
    · rintro ⟨-, rfl⟩
      exact ⟨_, rfl⟩

/-- A run without an answer ends by failing all nodes. -/
theorem exists_failAll (hout : answer runner report w result = .ok none) : ∃ w₁,
    conclude runner selected cancelAfter run report result w =
      failAll run selected (troubleOf result) w₁ := by
  cases result with
  | error trouble => exact ⟨_, conclude_trouble⟩
  | ok code =>
    obtain ⟨w₁, hcollect, -⟩ := collect_none hout
    exact ⟨_, conclude_of_collect_none hcollect⟩

/-- A run stops where its answer is not to be had. -/
theorem conclude_of_answer_error (h : answer runner report w result = .error e) : ∃ w₁,
    conclude runner selected cancelAfter run report result w = (.error e, w₁) := by
  cases result with
  | error trouble => nomatch h
  | ok code =>
    obtain ⟨w₁, hcollect, -⟩ := collect_error h
    exact ⟨_, conclude_of_collect_error hcollect⟩

/-- A run with an answer ends as collecting and finishing it does. -/
theorem conclude_of_answer {entries : List Entry}
    (hfound : answer runner report w result = .ok (some entries)) :
    (∃ e w₁, collect run selected cancelAfter report (laterStages runner) w = (.error e, w₁) ∧
      conclude runner selected cancelAfter run report result w = (.error e, w₁)) ∨
    ∃ found w₁, collect run selected cancelAfter report (laterStages runner) w =
        (.ok (some found), w₁) ∧
      conclude runner selected cancelAfter run report result w = finish run found w₁ := by
  cases result with
  | error trouble => nomatch hfound
  | ok code =>
    rcases hcollect : collect run selected cancelAfter report (laterStages runner) w with
      ⟨e | ⟨_ | found⟩, w₁⟩
    · exact .inl ⟨e, w₁, rfl, conclude_of_collect_error hcollect⟩
    · obtain ⟨entries', hfound', hnone, -⟩ := awaited_of_collect hcollect
      cases hfound.symm.trans hfound'
      nomatch hnone.1 rfl
    · exact .inr ⟨found, w₁, rfl, conclude_of_collect_some hcollect⟩

/-- A run of nodes whose ids can be read stops for the reasons listed, once it has been entered. -/
theorem stops_iff (hread : ∀ id ∈ selected, ∃ ref, NodeRef.read id = .ok ref)
    (hrun : Store.fits run = true) :
    (∃ w', (release runner targets >>= fun l =>
      conclude runner selected cancelAfter run l.1 l.2) w = (.error e, w')) ↔
    Stops runner selected cancelAfter run targets w e := by
  constructor
  · rintro ⟨w', h⟩
    rcases Action.bind_error_iff.1 h with hrelease | ⟨⟨report, result⟩, w₁, hrelease, h⟩
    · exact .release hrelease
    rcases hanswer : answer runner report w₁ result with e' | ⟨_ | entries⟩
    · obtain ⟨w₂, hconclude⟩ := conclude_of_answer_error hanswer
      cases hconclude.symm.trans h
      exact .wait hrelease hanswer
    · obtain ⟨w₂, hconclude⟩ := exists_failAll hanswer
      have hfault := (failAll_error_iff hrun hread).1 ⟨_, hconclude.symm.trans h⟩
      exact .nodes hrelease hanswer hfault
    · rcases conclude_of_answer hanswer with ⟨e', w₂, hcollect, hconclude⟩ |
        ⟨found, w₂, hcollect, hconclude⟩
      · cases hconclude.symm.trans h
        exact .reconcile hrelease hanswer hcollect
      · obtain ⟨hcounts, rfl⟩ := (finish_error_iff hrun).1 ⟨_, hconclude.symm.trans h⟩
        exact .tests hrelease hanswer hcollect hcounts
  · intro h
    cases h with
    | release h => exact ⟨_, Action.bind_error h⟩
    | wait hrelease h =>
      rw [Action.bind_ok hrelease]
      exact conclude_of_answer_error h
    | reconcile hrelease hfound h =>
      rw [Action.bind_ok hrelease]
      rcases conclude_of_answer hfound with ⟨e', w₂, hcollect, hconclude⟩ | ⟨_, _, hcollect, -⟩
      · cases hcollect.symm.trans h
        exact ⟨_, hconclude⟩
      · nomatch hcollect.symm.trans h
    | nodes hrelease hout h =>
      obtain ⟨w₁, hconclude⟩ := exists_failAll hout
      rw [Action.bind_ok hrelease, hconclude]
      exact (failAll_error_iff hrun hread).2 h
    | tests hrelease hfound hcollect h =>
      rw [Action.bind_ok hrelease]
      rcases conclude_of_answer hfound with ⟨_, _, hcollect', -⟩ | ⟨_, _, hcollect', hconclude⟩
      · nomatch hcollect.symm.trans hcollect'
      · cases hcollect.symm.trans hcollect'
        rw [hconclude]
        exact (finish_error_iff hrun).2 ⟨h, rfl⟩

/-- Why a run fails, and with which fault. -/
inductive Fails (runner : Runner) (ids : Option (List String)) (cancelAfter : Option Nat)
    (w : Workspace) : Fault → Prop where
  /-- A selected node is not known, or its id or that of a node above it cannot be read. -/
  | selection {e : SelectionFault} (h : w.catalog.select ids = .error e) :
    Fails runner ids cancelAfter w (.selection e)
  /-- The run cannot be entered. -/
  | start {selected : List String} {e : Fault} (hselect : w.catalog.select ids = .ok selected)
    (hsome : selected ≠ []) (h : startFault? selected w.store = some e) :
    Fails runner ids cancelAfter w e
  | stops {selected : List String} {targets : List Target} {run : Int} {e : Fault}
    {w₁ : Workspace} (hselect : w.catalog.select ids = .ok selected) (hsome : selected ≠ [])
    (henter : enter selected w = (.ok (targets, run), w₁))
    (h : Stops runner selected cancelAfter run targets w₁ e) : Fails runner ids cancelAfter w e

/-- A run ends with a fault exactly for the reasons listed. -/
theorem run_error_iff : (∃ w', Workspace.run runner ids cancelAfter w = (.error e, w')) ↔
    Fails runner ids cancelAfter w e := by
  rcases hselect : w.catalog.select ids with s | selected
  · rw [run_of_select_error hselect]
    constructor
    · rintro ⟨w', h⟩
      cases h
      exact .selection hselect
    · intro h
      cases h with
      | selection h =>
        cases hselect.symm.trans h
        exact ⟨_, rfl⟩
      | start h => cases hselect.symm.trans h
      | stops h => cases hselect.symm.trans h
  by_cases hsome : selected = []
  · subst hsome
    rw [run_of_select_nil hselect]
    refine ⟨fun ⟨_, h⟩ => (nomatch h), fun h => ?_⟩
    cases h with
    | selection h => cases hselect.symm.trans h
    | start h hsome => exact absurd (Except.ok.inj (h.symm.trans hselect)) hsome
    | stops h hsome => exact absurd (Except.ok.inj (h.symm.trans hselect)) hsome
  have hread := Catalog.exists_read_of_select hselect
  rw [run_eq hselect hsome]
  rcases enter_cases hread w with ⟨hnone, targets, run, w₁, henter⟩ | ⟨e', w₁, hfault, henter⟩
  · rw [Action.bind_ok henter, stops_iff hread (entered_of_enter henter).fits]
    refine ⟨.stops hselect hsome henter, fun h => ?_⟩
    cases h with
    | selection h => cases hselect.symm.trans h
    | start hselect' _ h =>
      cases hselect.symm.trans hselect'
      cases hnone.symm.trans h
    | stops hselect' _ henter' h =>
      cases hselect.symm.trans hselect'
      cases henter.symm.trans henter'
      exact h
  · rw [Action.bind_error henter]
    constructor
    · rintro ⟨w', h⟩
      cases h
      exact .start hselect hsome hfault
    · intro h
      cases h with
      | selection h => cases hselect.symm.trans h
      | start hselect' _ h =>
        cases hselect.symm.trans hselect'
        cases hfault.symm.trans h
        exact ⟨_, rfl⟩
      | stops hselect' _ henter' =>
        cases hselect.symm.trans hselect'
        cases henter.symm.trans henter'

/-! ## Imports -/

/-- Why an import fails, and with which fault. -/
inductive Refuses (path : String) (ids : Option (List String)) (w : Workspace) : Fault → Prop where
  /-- There is no report. -/
  | report {e : Fault} (h : readReport path w = .error e) : Refuses path ids w e
  | selection {entries : List Entry} {e : SelectionFault} (hread : readReport path w = .ok entries)
    (h : w.catalog.select ids = .error e) : Refuses path ids w (.selection e)
  /-- The run cannot be entered. -/
  | start {entries : List Entry} {selected : List String} {e : Fault}
    (hread : readReport path w = .ok entries) (hselect : w.catalog.select ids = .ok selected)
    (h : startFault? selected w.store = some e) : Refuses path ids w e
  /-- Not all nodes have ids that can be read, or not all texts can be stored. -/
  | reconcile {entries : List Entry} {selected : List String} {run : Int} {e : Fault}
    {w₁ w₂ : Workspace} (hread : readReport path w = .ok entries)
    (hselect : w.catalog.select ids = .ok selected) (hstart : startRun selected w = (.ok run, w₁))
    (h : applyReportWith (recordEncoded (some run)) entries (some selected) none w₁ =
      (.error e, w₂)) : Refuses path ids w e
  /-- There are too many tests below the nodes for the store. -/
  | tests {entries : List Entry} {selected : List String} {run : Int} {found : Results × Summary}
    {w₁ w₂ : Workspace} (hread : readReport path w = .ok entries)
    (hselect : w.catalog.select ids = .ok selected) (hstart : startRun selected w = (.ok run, w₁))
    (happly : applyReportWith (recordEncoded (some run)) entries (some selected) none w₁ =
      (.ok found, w₂))
    (h : ¬CountsFit found.2) : Refuses path ids w (.store .tooLarge)

/-- An import ends with a fault exactly for the reasons listed. -/
theorem importReport_error_iff : (∃ w', Workspace.importReport path ids w = (.error e, w')) ↔
    Refuses path ids w e := by
  constructor
  · rintro ⟨w', h⟩
    cases hread : readReport path w with
    | error t =>
      cases (importReport_of_read_error hread).symm.trans h
      exact .report hread
    | ok entries =>
      cases hselect : w.catalog.select ids with
      | error s =>
        cases (importReport_of_select_error hread hselect).symm.trans h
        exact .selection hread hselect
      | ok selected =>
        rw [importReport_eq hread hselect] at h
        cases hfault : startFault? selected w.store with
        | some e' =>
          rw [Action.bind_error (startRun_of_some hfault)] at h
          cases h
          exact .start hread hselect hfault
        | none =>
          have hstart := startRun_of_none hfault
          rw [Action.bind_ok hstart] at h
          rcases Action.bind_error_iff.1 h with happly | ⟨found, w₂, happly, hfinish⟩
          · exact .reconcile hread hselect hstart happly
          · obtain ⟨hcounts, rfl⟩ :=
              (finish_error_iff (entered_of_startRun hstart).fits).1 ⟨_, hfinish⟩
            exact .tests hread hselect hstart happly hcounts
  · intro h
    cases h with
    | report h => exact ⟨w, importReport_of_read_error h⟩
    | selection hread h => exact ⟨w, importReport_of_select_error hread h⟩
    | start hread hselect h =>
      rw [importReport_eq hread hselect]
      exact ⟨_, Action.bind_error (startRun_of_some h)⟩
    | reconcile hread hselect hstart h =>
      rw [importReport_eq hread hselect, Action.bind_ok hstart]
      exact ⟨_, Action.bind_error h⟩
    | tests hread hselect hstart happly h =>
      rw [importReport_eq hread hselect, Action.bind_ok hstart, Action.bind_ok happly]
      exact (finish_error_iff (entered_of_startRun hstart).fits).2 ⟨h, rfl⟩

/-- There is no room for an import: none in the store, or none for the depth of the report. -/
def NoRoom (e : Fault) : Prop :=
  e = .store .full ∨ e = .store .tooLarge ∨ ∃ levels, e = .excess (.depth levels)

theorem readReport_error_cases (h : readReport path w = .error e) :
    (e.kind.isValue || e.kind.isSystem) = true ∨ NoRoom e := by
  rw [readReport] at h
  cases hgiven : Text.systemFault? (Path.ofString path).toString with
  | some f =>
    rw [hgiven] at h
    cases h
    exact .inl rfl
  | none =>
    rw [hgiven] at h
    cases htext : w.readText path with
    | error t =>
      rw [htext] at h
      cases h
      refine .inl ?_
      cases t with
      | encoding _ => rfl
      | file f =>
        rw [Fault.kind, Fault.kindOfText, Fault.kindOfFile]
        split <;> rfl
    | ok text =>
      rw [htext] at h
      cases hread : Report.read w.surroundings.levels text with
      | ok entries =>
        replace h : (Report.read w.surroundings.levels text).mapError Fault.ofReport = .error e := h
        rw [hread] at h
        cases h
      | error t =>
        replace h : (Report.read w.surroundings.levels text).mapError Fault.ofReport = .error e := h
        rw [hread] at h
        cases h
        cases t with
        | report _ => exact .inl rfl
        | excess x =>
          cases x with
          | digits _ => exact .inl rfl
          | depth levels => exact .inr (.inr (.inr ⟨levels, rfl⟩))

/-- An import fails because of what it was given, or because there is no room for it. -/
theorem Refuses.cases (h : Refuses path ids w e) :
    (e.kind.isValue || e.kind.isSystem) = true ∨ NoRoom e := by
  cases h with
  | report h => exact readReport_error_cases h
  | selection => exact .inl rfl
  | start _ _ h =>
    rw [startFault?] at h
    split at h
    · cases h
      exact .inl rfl
    · split at h
      · cases h
      · cases h
        exact .inr (.inl rfl)
  | reconcile _ _ hstart h =>
    have hvalue := throws_applyReport (entered_of_startRun hstart).fits _ _ _ _ _ _ h
    exact .inl (by rw [hvalue]; rfl)
  | tests => exact .inr (.inr (.inl rfl))

end FeatureRun.Run
