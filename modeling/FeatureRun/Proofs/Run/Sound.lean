import FeatureRun.Proofs.Catalog.Update
import FeatureRun.Proofs.Outcome.Lines
import FeatureRun.Proofs.Run.Course
import FeatureRun.Proofs.Run.Reconcile

/-!
# Results that are well formed

Rows of the store have four origins: the outcomes of a row or a scenario, the roll-up of a rule or a
feature, the verdict on a feature by its entry, and the failing of all nodes of a run. In each of
them a result has failures exactly if it failed, and only rules and features can have passed in
part. Recording such results keeps the rows of the store well formed, also where it breaks off.

* `Result.Sound`: a result that is well formed, from whichever origin.
* `Store.WellFormed`: a row that is well formed.
* `Sound`: a workspace all of whose rows are, with features that were read from files.
* `maintains_run`, `maintains_importReport`: runs and imports leave a workspace so.
-/
set_option autoImplicit false

namespace FeatureRun

open Report (Entry Stage)
open FeatureRun.Action (Keeps Maintains)

/-- A reference to a scenario or a row. -/
def NodeRef.isTest : NodeRef → Bool
  | .scenario _ _ => true
  | .row _ _ _ => true
  | _ => false

/-- A result has failures exactly if it failed, and only one of a rule or a feature is partial. -/
structure Result.Sound (r : Result) : Prop where
  status : r.status = .passed ∨ r.status = .failed ∨ r.status = .mixed ∨ r.status = .unmatched
  failures : r.failures ≠ [] ↔ r.status = .failed
  test : ∀ ref, NodeRef.read r.id = .ok ref → ref.isTest = true → r.status ≠ .mixed

/-! ## Rolling up -/

namespace RollUp

variable {file id : String} {f : Feature} {os : List Outcome} {rs : List Result} {x : NodeRef}
  {r : Result}

theorem sound_test (id : String) (os : List Outcome) : (test id os).Sound where
  status := by
    simp only [test, statusOf]
    split
    · exact .inr (.inr (.inr rfl))
    · split
      · exact .inl rfl
      · exact .inr (.inl rfl)
  failures := by
    change failuresOf os ≠ [] ↔ statusOf os = .failed
    rw [statusOf_eq_failed_iff, failuresOf, ne_eq, List.map_eq_nil_iff, List.filter_eq_nil_iff]
    simp
  test _ _ _ := by
    simp only [test, statusOf]
    split
    · decide
    · split <;> decide

/-- The roll-up of sound results is sound, if it is not that of a scenario or a row. -/
theorem sound_group (hrs : ∀ r ∈ rs, r.Sound)
    (hid : ∀ ref, NodeRef.read id = .ok ref → ref.isTest = false) : (group id rs).Sound where
  status := by
    simp only [group, groupStatus]
    split
    · exact .inr (.inl rfl)
    · split
      · exact .inl rfl
      · split
        · exact .inr (.inr (.inr rfl))
        · exact .inr (.inr (.inl rfl))
  failures := by
    change rs.flatMap Result.failures ≠ [] ↔ groupStatus rs = .failed
    rw [groupStatus_eq_failed_iff, ne_eq, List.flatMap_eq_nil_iff]
    constructor
    · intro h
      obtain ⟨r, hr, hsome⟩ : ∃ r ∈ rs, r.failures ≠ [] := by simpa using h
      exact ⟨r, hr, (hrs r hr).failures.1 hsome⟩
    · rintro ⟨r, hr, hfailed⟩ h
      exact (hrs r hr).failures.2 hfailed (h r hr)
  test ref hread htest := by
    rw [hid ref hread] at htest
    cases htest

/-- All results of a feature are sound. -/
theorem Rolled.sound (hid : IsFileId file) (h : Rolled file f os x r) : r.Sound := by
  have htests : ∀ {ss : List Scenario}, ∀ r ∈ ss.map (scenarioTest file os), r.Sound := by
    intro ss r hr
    obtain ⟨s, -, rfl⟩ := List.mem_map.1 hr
    exact sound_test _ _
  cases h with
  | row => exact sound_test _ _
  | scenario => exact sound_test _ _
  | @rule r =>
    refine sound_group htests fun ref hread => ?_
    obtain ⟨_, _, rfl⟩ := NodeRef.exists_rule_of_read
      ⟨file.toList, (toString r.line).toList, by
        simp only [ruleId, NodeRef.id, String.toList_append]⟩ hread
    rfl
  | feature =>
    refine sound_group htests fun ref hread => ?_
    cases (NodeRef.read_of_noMark hid.noRule hid.noScenario).symm.trans hread
    rfl

end RollUp

namespace Store

/-- A row of the store for the node with this id. -/
structure WellFormed (n : String) (row : Row) : Prop where
  status : row.status = .passed ∨ row.status = .failed ∨ row.status = .mixed
  /-- There are failures exactly if the node failed. -/
  failures : failuresOf row.failures ≠ [] ↔ row.status = .failed
  /-- The file is that of the node. -/
  file : ∃ ref, NodeRef.read n = .ok ref ∧ row.file = ref.file
  /-- A scenario or row of a table either passed or failed. -/
  test : ∀ ref, NodeRef.read n = .ok ref → ref.isTest = true → row.status ≠ .mixed

variable {run : Option Int} {now n : String} {r : Result} {rs : List Result} {s t : Store}

theorem wellFormed_keep (hs : ∀ n row, s.rows.get? n = some row → WellFormed n row)
    (hr : r.Sound) (hstatus : r.status ≠ .unmatched) (h : s.keep run now r = .ok t) :
    ∀ n row, t.rows.get? n = some row → WellFormed n row := by
  intro n row hrow
  rw [keep] at h
  split at h
  · cases h
  · rename_i ref hread
    split at h
    · cases h
      rw [OrderedMap.get?_insert] at hrow
      split at hrow
      · rename_i hn
        cases hrow
        subst hn
        constructor
        case status => simpa [hstatus] using hr.status
        case failures => rw [failuresOf_failuresText]; exact hr.failures
        case file => exact ⟨ref, hread, rfl⟩
        case test => exact hr.test
      · exact hs n row hrow
    · cases h

/-- Recording sound results keeps all rows well formed, as far as it gets. -/
theorem wellFormed_recordFrom (count : Nat)
    (hs : ∀ n row, s.rows.get? n = some row → WellFormed n row) (hrs : ∀ r ∈ rs, r.Sound) :
    ∀ n row, (recordFrom run now count s rs).2.rows.get? n = some row → WellFormed n row := by
  induction rs generalizing count s with
  | nil => exact hs
  | cons r rs ih =>
    obtain ⟨hr, hrs⟩ := List.forall_mem_cons.1 hrs
    rw [recordFrom]
    split
    · exact ih count hs hrs
    · rename_i hstatus
      cases hkeep : s.keep run now r with
      | error e => exact hs
      | ok t => exact ih (count + 1) (wellFormed_keep hs hr hstatus hkeep) hrs

end Store

namespace Run

/-- All rows are well formed, and all features were read from feature files. -/
structure Healthy (rows : OrderedMap String Store.Row) (c : Catalog) : Prop where
  rows : ∀ n row, rows.get? n = some row → Store.WellFormed n row
  texts : c.FromTexts
  ids : c.FileIds

/-- What a workspace knows about nodes. -/
def known (w : Workspace) : OrderedMap String Store.Row × Catalog := (w.store.rows, w.catalog)

abbrev IsHealthy (w : Workspace) : Prop := Healthy w.store.rows w.catalog

variable {α : Type} {act : Action α} {c : Catalog} {root : Path} {report : List Entry}
  {file id : String} {f : Feature} {r : Result} {rs : List Result} {run : Int}

/-! ## Applying a report -/

theorem sound_featureResult (hid : IsFileId file) (f : Feature) :
    (featureResult report file f).Sound := by
  have hfile : NodeRef.read file = .ok (.feature file) :=
    NodeRef.read_of_noMark hid.noRule hid.noScenario
  have htest : ∀ ref, NodeRef.read (featureResult report file f).id = .ok ref →
      ref.isTest = true → (featureResult report file f).status ≠ .mixed := by
    intro ref hread htest
    rw [featureResult_eq] at hread
    cases hfile.symm.trans hread
    nomatch htest
  by_cases hfailed : Outcome.fileFailed (some report) file = true
  · have hstatus : (featureResult report file f).status = .failed := by
      rw [featureResult_eq, if_pos hfailed]
    have hsome : (featureResult report file f).failures ≠ [] := by
      rw [featureResult, if_pos hfailed]
      dsimp only
      split
      · exact List.cons_ne_nil _ _
      · rename_i hmessages
        exact fun hnil => hmessages (List.isEmpty_iff.2 hnil)
    exact ⟨.inr (.inl hstatus), iff_of_true hsome hstatus, htest⟩
  · have hpassed : featureResult report file f = ⟨file, .passed, []⟩ := by
      rw [featureResult, if_neg hfailed]
    exact ⟨.inl (by rw [hpassed]), by simp [hpassed], htest⟩

theorem sound_verdict (hid : IsFileId file) (hf : f.Ordered)
    (h : (verdicts report file f).get? id = some r) : r.Sound := by
  obtain ⟨x, -, hrolled⟩ := RollUp.exists_rolled_of_get? hf h
  exact hrolled.sound hid

/-- Whatever a report says about a node is sound. -/
theorem sound_of_applyTo {a : Applied} (htexts : c.FromTexts) (hids : c.FileIds)
    (h : applyTo c root report id = .ok (some a)) : ∀ r ∈ a.writes, r.Sound := by
  obtain ⟨x, f, below, above, -, hget, -, -, rfl⟩ := applyTo_eq_some_iff.1 h
  have hid := hids x.file f hget
  obtain ⟨text, htext⟩ := htexts x.file f hget
  intro r hr
  rcases mem_writes_cases hr with rfl | ⟨n, hn⟩
  · exact sound_featureResult hid f
  · exact sound_verdict hid (Feature.ordered_read htext) hn

/-! ## What the steps maintain -/

theorem maintains_of_keeps (h : Keeps known act) : Maintains IsHealthy act :=
  h.maintains fun v => Healthy v.1 v.2

theorem maintains_of_offDisk (h : Keeps offDisk act) : Maintains IsHealthy act :=
  maintains_of_keeps (h.part known)

theorem maintains_record (run : Option Int) (hrs : ∀ r ∈ rs, r.Sound) :
    Maintains IsHealthy (record run rs) := by
  intro w hw
  rw [record_result]
  exact ⟨Store.wellFormed_recordFrom 0 hw.rows hrs, hw.texts, hw.ids⟩

theorem keeps_known_selection (ids : Option (List String)) : Keeps known (selection ids) :=
  .get_bind fun w => Action.keeps_ofExcept _ _ w

/-- Checking the texts first only leaves out some results. -/
theorem maintains_recordEncoded (run : Option Int) (hrs : ∀ r ∈ rs, r.Sound) :
    Maintains IsHealthy (recordEncoded run rs) :=
  (maintains_record run fun r hr => hrs r ((List.takeWhile_sublist _).subset hr)).bind fun _ =>
    maintains_of_keeps (Action.keeps_ensureEncoded _)

theorem maintains_applyAll (report : List Entry) (run : Option Int) (results : Results)
    (counts : Summary) (ids : List String) :
    Maintains IsHealthy (applyAllWith (recordEncoded run) report results counts ids) := by
  induction ids generalizing results counts with
  | nil => exact maintains_of_keeps (Action.keeps_pure _)
  | cons id ids ih =>
    refine .get_bind fun w hw => ?_
    cases happly : applyTo w.catalog w.root report id with
    | error e => exact hw
    | ok applied =>
      rw [Action.bind_ok (Action.ofExcept_ok _ _)]
      cases applied with
      | none => exact ih results counts w hw
      | some a =>
        refine Maintains.bind (maintains_of_keeps fun _ => rfl) (fun _ => ?_) w hw
        exact (maintains_recordEncoded run (sound_of_applyTo hw.texts hw.ids happly)).bind fun _ =>
          ih _ _

theorem maintains_applyReport (report : List Entry) (ids : Option (List String))
    (cancelAfter : Option Nat) (run : Option Int) :
    Maintains IsHealthy (applyReportWith (recordEncoded run) report ids cancelAfter) := by
  refine (maintains_of_keeps (keeps_known_selection ids)).bind fun selected =>
    (maintains_applyAll _ _ _ _ _).bind fun found => maintains_of_keeps ?_
  dsimp only
  split
  · exact Keeps.bind (fun _ => rfl) fun _ => Action.keeps_pure found
  · exact Action.keeps_pure found

theorem keeps_known_onStore {change : Store → Except StoreFault α × Store}
    (h : ∀ s, (change s).2.rows = s.rows) : Keeps known (Action.onStore change) := by
  intro w
  change ((change w.store).2.rows, w.catalog) = (w.store.rows, w.catalog)
  rw [h]

/-- Starting a run changes the log only, -/
theorem keeps_known_startRun (targets : List String) : Keeps known (startRun targets) := by
  refine (Action.keeps_ensureEncoded _).bind fun _ => .get_bind fun w =>
    keeps_known_onStore (fun s => ?_) w
  rw [Store.startRun]
  by_cases hfits : Store.fits (s.lastRun + 1) = true
  · simp only [if_pos hfits]
  · simp only [if_neg hfits]

/-- and so does finishing it. -/
theorem keeps_known_finishRun (run : Int) (counts : Summary) (status : Option RunStatus) :
    Keeps known (finishRun run counts status) := by
  refine .get_bind fun w => keeps_known_onStore (fun s => ?_) w
  rw [Store.finishRun]
  by_cases hfits : [counts.total, counts.passed, counts.failed, counts.unmatched, run].all
      Store.fits = true
  · simp only [if_pos hfits]
  · simp only [if_neg hfits]

theorem keeps_known_finish (run : Int) (found : Results × Summary) :
    Keeps known (finish run found) :=
  (keeps_known_finishRun _ _ _).bind fun _ => Keeps.bind (fun _ => rfl) fun _ => fun _ => rfl

/-- All selected nodes fail with one failure each. -/
theorem maintains_failAll (run : Int) (selected : List String) (failure : Failure) :
    Maintains IsHealthy (failAll run selected failure) := by
  rw [failAll_eq]
  refine (maintains_recordEncoded _ fun r hr => ?_).bind fun _ => maintains_of_keeps ?_
  · obtain ⟨id, -, rfl⟩ := mem_values_failedAlike.1 hr
    exact ⟨.inr (.inl rfl), iff_of_true (List.cons_ne_nil _ _) rfl, fun _ _ _ => nofun⟩
  · refine (keeps_known_finishRun _ _ _).bind fun _ => ?_
    exact Keeps.bind (fun _ => rfl) fun _ => fun _ => rfl

theorem maintains_collect (run : Int) (selected : List String) (cancelAfter : Option Nat)
    (report : Path) (later : List Stage) :
    Maintains IsHealthy (collect run selected cancelAfter report later) := by
  refine Maintains.endingWith ?_ fun w hw => hw
  have hawait := keeps_offDisk (keeps_awaitReport report later)
  refine (maintains_of_offDisk hawait).bind fun entries => ?_
  cases entries with
  | none => exact maintains_of_keeps (Action.keeps_pure _)
  | some entries =>
    exact (maintains_applyReport entries _ cancelAfter _).bind fun found =>
      maintains_of_keeps (Action.keeps_pure _)

theorem maintains_conclude (runner : Runner) (selected : List String) (cancelAfter : Option Nat)
    (run : Int) (report : Path) (result : Except Runner.Fault Int) :
    Maintains IsHealthy (conclude runner selected cancelAfter run report result) := by
  cases result with
  | error e =>
    exact Maintains.bind (maintains_of_keeps fun _ => rfl) fun _ => maintains_failAll _ _ _
  | ok code =>
    refine (maintains_collect _ _ _ _ _).bind fun found => ?_
    cases found with
    | none => exact maintains_failAll _ _ _
    | some found => exact maintains_of_keeps (keeps_known_finish run found)

theorem maintains_enter (selected : List String) : Maintains IsHealthy (enter selected) := by
  refine maintains_of_keeps (.get_bind fun w => ?_)
  refine Keeps.bind ((keeps_targets w.root selected).part known) (fun targets => ?_) w
  refine ((keeps_nameOf selected).part known).bind fun name => ?_
  refine Keeps.bind (fun _ => rfl) fun _ => ?_
  exact (keeps_known_startRun selected).bind fun run => Action.keeps_pure _

/-- A run leaves the workspace healthy, however it ends. -/
theorem maintains_run (runner : Runner) (ids : Option (List String)) (cancelAfter : Option Nat) :
    Maintains IsHealthy (Workspace.run runner ids cancelAfter) := by
  intro w hw
  cases hselect : w.catalog.select ids with
  | error e =>
    rwa [run_of_select_error hselect]
  | ok selected =>
    by_cases hsome : selected = []
    · rw [hsome] at hselect
      rwa [run_of_select_nil hselect]
    · rw [run_eq hselect hsome]
      refine Maintains.bind (maintains_enter selected) (fun e => ?_) w hw
      exact (maintains_of_offDisk (keeps_release _ _)).bind fun l =>
        maintains_conclude _ _ _ _ _ _

/-- So does an import. -/
theorem maintains_importReport (path : String) (ids : Option (List String)) :
    Maintains IsHealthy (Workspace.importReport path ids) := by
  refine .get_bind fun w hw => ?_
  refine Maintains.bind (maintains_of_keeps (Action.keeps_ofExcept _ _)) (fun report => ?_) w hw
  refine (maintains_of_keeps (keeps_known_selection ids)).bind fun selected => ?_
  refine (maintains_of_keeps (keeps_known_startRun selected)).bind fun run => ?_
  exact (maintains_applyReport _ _ _ _).bind fun found =>
    maintains_of_keeps (keeps_known_finish run found)

end Run
end FeatureRun
