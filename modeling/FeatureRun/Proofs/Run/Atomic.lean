import FeatureRun.Proofs.Catalog.Accepted
import FeatureRun.Proofs.Catalog.Update
import FeatureRun.Proofs.Run.Effect
import FeatureRun.Proofs.Run.Encoded
import FeatureRun.Proofs.Run.Faults
import FeatureRun.Proofs.Run.Readable
import FeatureRun.Proofs.Run.Tests
import FeatureRun.Proofs.Store.Refine

/-!
# Imports are all or nothing

What can be wrong with an import comes to light before anything is written: when the report is read
and the selection is accepted. A selection that has been accepted is accepted again when the report
is applied, and whatever the report says about its roots can be recorded and counted. So an import
that fails changes nothing, and one that does not adds one run that is finished.

* `CountsUpTo`: counts over so many tests at most, for which the store has room.
* `exists_applyTo_of_accepted`: what a report says about an accepted root.
* `exists_applyReport_of_select`: a report is applied to an accepted selection.
* `importReport_atomic`: both ways in which an import can end.
-/
set_option autoImplicit false

namespace FeatureRun.Run

open Report (Entry AllWhole)
open Catalog Feature

/-- The counts over a list of at most `n` tests. -/
def CountsUpTo (n : Nat) (counts : Summary) : Prop :=
  ∃ ss : List Status, counts = tally ss ∧ ss.length ≤ n

/-- What is said about a node can be recorded, and counts at most `n` tests. -/
structure Recordable (n : Nat) (a : Applied) : Prop where
  read : ∀ r ∈ a.writes, ∃ ref, NodeRef.read r.id = .ok ref
  counts : CountsUpTo n a.counts

/-- One run has been added to the log, and it is finished. -/
def AddsFinishedRun (w w' : Workspace) : Prop :=
  ∃ row : Store.Run, w'.store.runs = row :: w.store.runs ∧ row.id = w.store.lastRun + 1 ∧
    row.status ≠ .running ∧ row.finished = some w.stamp

variable {c : Catalog} {root : Path} {report : List Entry} {id path : String} {x : NodeRef}
  {f : Feature} {ids : Option (List String)} {roots : List String} {run : Int} {m n : Nat}
  {a b : Summary} {w w₁ w₂ : Workspace}

/-! ## The counts -/

theorem countsUpTo_empty (n : Nat) : CountsUpTo n .empty := ⟨[], rfl, Nat.zero_le n⟩

theorem CountsUpTo.add (ha : CountsUpTo m a) (hb : CountsUpTo n b) :
    CountsUpTo (m + n) (a + b) := by
  obtain ⟨ss, rfl, hss⟩ := ha
  obtain ⟨ts, rfl, hts⟩ := hb
  refine ⟨ss ++ ts, (tally_append ss ts).symm, ?_⟩
  rw [List.length_append]
  omega

theorem fits_of_le (h : m ≤ n) (hn : Store.fits n = true) : Store.fits m = true := by
  simp only [Store.fits, Bool.and_eq_true, decide_eq_true_eq] at hn ⊢
  omega

theorem CountsUpTo.countsFit (h : CountsUpTo n a) (hn : Store.fits n = true) : CountsFit a := by
  obtain ⟨ss, rfl, hss⟩ := h
  exact countsFit_tally_iff.2 (fits_of_le hss hn)

/-- Counts that are added up are counts of all the tests. -/
theorem countsUpTo_foldl {applied : List Applied} (happlied : ∀ a ∈ applied, CountsUpTo n a.counts)
    (h : CountsUpTo m a) : CountsUpTo (m + applied.length * n)
      (applied.foldl (fun sum a => sum + a.counts) a) := by
  induction applied generalizing m a with
  | nil => simpa using h
  | cons b applied ih =>
    obtain ⟨hb, hrest⟩ := List.forall_mem_cons.1 happlied
    have hall := ih hrest (h.add hb)
    rwa [show m + n + applied.length * n = m + (b :: applied).length * n by
      rw [List.length_cons, Nat.succ_mul]; omega] at hall

/-! ## Applying the report -/

/-- A verdict is that of a node of the feature, under its id. -/
theorem refers_of_verdict {file n : String} {r : Result}
    (h : (verdicts report file f).get? n = some r) : ∃ y, f.Refers file y ∧ y.id = r.id := by
  have hkey : n ∈ (verdicts report file f).keys := OrderedMap.mem_keys_iff.2 (by rw [h]; rfl)
  obtain ⟨y, hy, hid⟩ := mem_keys_verdicts.1 hkey
  exact ⟨y, hy, hid.trans (RollUp.id_of_get?_results h).symm⟩

/-- Whatever a report says about an accepted root can be recorded. -/
theorem exists_applyTo_of_accepted (h : c.Accepted id x f) (hfree : c.RuleFree) (hfits : c.LinesFit)
    (hf : f.Ordered) (root : Path) (report : List Entry) :
    ∃ a, applyTo c root report id = .ok (some a) ∧ Recordable c.countTests a := by
  have hlines := hfits _ f h.get
  obtain ⟨below, hbelow⟩ := h.exists_descendants hfree hlines hf
  obtain ⟨above, habove⟩ := h.ancestors
  refine ⟨_, applyTo_eq_some_iff.2 ⟨x, f, below, above, h.read, h.get, hbelow, habove, rfl⟩, ?_⟩
  constructor
  case read =>
    intro r hr
    have hnode : ∃ y, f.Refers x.file y ∧ y.id = r.id := by
      rcases mem_writes_cases hr with rfl | ⟨n, hn⟩
      · exact ⟨.feature x.file, .feature, by rw [featureResult_eq]; rfl⟩
      · exact refers_of_verdict hn
    obtain ⟨y, hy, hid⟩ := hnode
    exact hid ▸ h.readable hfree hlines y hy
  case counts =>
    refine ⟨_, countLeaves_eq _ _, ?_⟩
    have hleaves : (f.leaves x.file).length ≤ c.countTests :=
      length_leaves x.file f ▸ countTests_le h.get
    rw [List.length_map]
    exact Nat.le_trans (List.length_filter_le _ _) hleaves

/-- Finishing a run with a new number leaves the other runs as they are. -/
theorem ended_startedRow {selected : List String} {counts : Summary} {status : Option RunStatus}
    {now started : String} {runs : List Store.Run} (hnew : ∀ r ∈ runs, r.id ≠ run) :
    ended run counts status now (startedRow run selected started :: runs) =
      finishedRow counts status now (startedRow run selected started) :: runs := by
  have hold : runs.map (fun r => if r.id = run then finishedRow counts status now r else r) =
      runs :=
    (List.map_congr_left (g := id) fun r hr => if_neg (hnew r hr)).trans (List.map_id runs)
  rw [ended, List.map_cons, hold]
  exact congrArg (· :: runs) (if_pos rfl)

/-! ## Imports -/

section Import

variable (hc : w.catalog.FromTexts) (hfree : w.catalog.RuleFree) (hfits : w.catalog.LinesFit)

include hc hfree hfits

/-- A selection that has been accepted can have any report applied to it. -/
theorem exists_applyReport_of_select (hselect : w.catalog.select ids = .ok roots)
    (hrun : Store.fits run = true) (report : List Entry) : ∃ found w',
      applyReport report (some roots) none (some run) w = (.ok found, w') ∧
      CountsUpTo (roots.length * w.catalog.countTests) found.2 := by
  obtain ⟨applied, happlied, hall⟩ : ∃ applied : List Applied,
      roots.map (applyTo w.catalog w.root report) = applied.map (fun a => .ok (some a)) ∧
      ∀ a ∈ applied, Recordable w.catalog.countTests a := by
    refine exists_map_eq fun id hid => ?_
    obtain ⟨x, f, haccepted⟩ := accepted_of_select hselect id hid
    obtain ⟨text, htext⟩ := hc _ f haccepted.get
    exact exists_applyTo_of_accepted haccepted hfree hfits (ordered_read htext) w.root report
  have hkeep : ∀ a ∈ applied, Keepable (record (some run)) (some run) a.writes :=
    fun a ha => keepable_record hrun (hall a ha).read
  obtain ⟨journal, happly⟩ := applyAll_apply happlied hkeep .empty .empty
  refine ⟨_, _, applyReport_of_select (select_of_sublist hselect (.refl roots)) happly, ?_⟩
  have hlength : applied.length = roots.length := by
    simpa using (congrArg List.length happlied).symm
  have hcounts := countsUpTo_foldl (fun a ha => (hall a ha).counts) (countsUpTo_empty 0)
  rwa [hlength, Nat.zero_add] at hcounts

/-- An import of a selection that is accepted adds a run that is finished, unless no run can be
entered. -/
theorem importReport_of_select (hruns : ∀ r ∈ w.store.runs, r.id ≤ w.store.lastRun)
    (hread : readReport path w = .ok report) (hreport : AllWhole report)
    (hselect : w.catalog.select ids = .ok roots)
    (hfew : Store.fits (roots.length * w.catalog.countTests : Nat) = true) :
    (∃ e, Workspace.importReport path ids w = (.error e, w)) ∨
    ∃ r w', Workspace.importReport path ids w = (.ok r, w') ∧ AddsFinishedRun w w' := by
  rw [importReport_eq hread hselect]
  cases hfault : startFault? roots w.store with
  | some e => exact .inl ⟨e, Action.bind_error (startRun_of_some hfault)⟩
  | none =>
    obtain ⟨w₁, hstart⟩ : ∃ w₁, startRun roots w = (.ok (w.store.lastRun + 1), w₁) :=
      ⟨_, startRun_of_none hfault⟩
    have hentered := entered_of_startRun hstart
    have hselect₁ : w₁.catalog.select ids = .ok roots := hentered.catalog ▸ hselect
    have hc₁ : w₁.catalog.FromTexts := hentered.catalog ▸ hc
    obtain ⟨found, w₂, happly, hcounts⟩ := exists_applyReport_of_select hc₁
      (hentered.catalog ▸ hfree) (hentered.catalog ▸ hfits) hselect₁ hentered.fits report
    rw [← applyReportWith_encoded_eq hc₁ (select_of_sublist hselect₁ (.refl roots))
      (all_isWhole_of_startFault? hfault) hreport] at happly
    rw [hentered.catalog] at hcounts
    obtain ⟨hlog, hstamp⟩ := Prod.mk.inj (logged_of_unrecorded
      ((keeps_applyReportWith (keeps_recordEncoded _) _ _ _).apply happly))
    -- no other run has the number, so that only the new row is finished
    have hnew : ∀ r ∈ w.store.runs, r.id ≠ w.store.lastRun + 1 := by
      intro r hr
      have := hruns r hr
      omega
    rw [Action.bind_ok hstart, Action.bind_ok happly,
      finish_apply hentered.fits (hcounts.countsFit hfew)]
    refine .inr ⟨_, _, rfl, finishedRow found.2 (statusBy found.1) w.stamp
      (startedRow (w.store.lastRun + 1) roots w.stamp), ?_, rfl,
      (endStatus_statusBy found.2 found.1).2, rfl⟩
    change ended _ _ _ w₂.stamp w₂.store.runs = _
    rw [hlog, hstamp, hentered.store, hentered.stamp, ended_startedRow hnew]

end Import

/-- An import that fails leaves the workspace as it was; one that does not adds one run to the log,
and that run is finished. The ids of nodes must be such that they can be read if those of their
files can, the numbers in the log must have been given out, the counts must fit, and no text in the
report may have a half of a surrogate pair. -/
theorem importReport_atomic (path : String) (ids : Option (List String))
    (hc : w.catalog.FromTexts) (hfree : w.catalog.RuleFree) (hfits : w.catalog.LinesFit)
    (hruns : ∀ r ∈ w.store.runs, r.id ≤ w.store.lastRun)
    (hfew : Store.fits ((w.catalog.chosen ids).length * w.catalog.countTests : Nat) = true)
    (hwhole : ∀ report, readReport path w = .ok report → AllWhole report) :
    (∃ e, Workspace.importReport path ids w = (.error e, w)) ∨
    ∃ r w', Workspace.importReport path ids w = (.ok r, w') ∧ AddsFinishedRun w w' := by
  cases hread : readReport path w with
  | error e => exact .inl ⟨e, importReport_of_read_error hread⟩
  | ok report =>
    cases hselect : w.catalog.select ids with
    | error e => exact .inl ⟨_, importReport_of_select_error hread hselect⟩
    | ok roots =>
      have hlength : roots.length ≤ (w.catalog.chosen ids).length := length_le_of_select hselect
      have hroots : Store.fits (roots.length * w.catalog.countTests : Nat) = true :=
        fits_of_le (Nat.mul_le_mul_right _ hlength) hfew
      exact importReport_of_select hc hfree hfits hruns hread (hwhole report hread) hselect hroots

/-- An empty report and a store in which a run is under way. -/
theorem importReport_atomic_of_empty_report :
    ∃ w : Workspace, w.catalog.FromTexts ∧ w.catalog.RuleFree ∧ w.catalog.LinesFit ∧
      w.store.runs.map Store.Run.id = [1] ∧ (∀ r ∈ w.store.runs, r.id ≤ w.store.lastRun) ∧
      Store.fits ((w.catalog.chosen none).length * w.catalog.countTests : Nat) = true ∧
      (∀ report, readReport "r.json" w = .ok report → AllWhole report) ∧
      ((∃ e, Workspace.importReport "r.json" none w = (.error e, w)) ∨
        ∃ r w', Workspace.importReport "r.json" none w = (.ok r, w') ∧ AddsFinishedRun w w') := by
  let store : Store := (Store.empty.perform (.startRun ["/a.feature"] "dawn")).2
  let w : Workspace := { oneScenario with
    disk := .dir [("r.json", .file (Text.Utf8.encode "[]"))], store := store }
  have hreached : Store.Reaches _ store := .call (.startRun ["/a.feature"] "dawn") .new trivial
  have hparsed : oneScenario.catalog.Parsed :=
    parsed_empty.readFile ⟨by decide, by decide, by decide⟩ ⟨by decide⟩
  have hc : w.catalog.FromTexts := fun file f h =>
    (hparsed file f h).2.imp fun _ ht => ht.1
  have hfree : w.catalog.RuleFree :=
    ruleFree_of_feature_ends fun file f h => (hparsed file f h).1.suffix
  have hfits : w.catalog.LinesFit := fun file f h => (hparsed.holds h).fits
  have hfew : Store.fits ((w.catalog.chosen none).length * w.catalog.countTests : Nat) = true := by
    decide +kernel
  have hwhole : ∀ report, readReport "r.json" w = .ok report → AllWhole report := by
    intro report hread
    have hnone : (readReport "r.json" w).toOption.all List.isEmpty = true := by decide +kernel
    rw [hread] at hnone
    rw [List.isEmpty_iff.1 hnone]
    exact List.forall_mem_nil _
  exact ⟨w, hc, hfree, hfits, rfl, hreached.id_le_lastRun, hfew, hwhole,
    importReport_atomic "r.json" none hc hfree hfits hreached.id_le_lastRun hfew hwhole⟩

/-- In a file whose id ends where the mark of a rule could begin, a scenario has an id that cannot
be read. That comes to light when the report is applied, and the run is left in the log. -/
theorem importReport_leaves_run_of_rule_end : ∃ e w',
    Workspace.importReport "r.json" none { oneScenario with
      disk := .dir [("r.json", .file (Text.Utf8.encode "[]"))]
      catalog := Catalog.empty.readFile "/x:rule" "Feature: A\nScenario: B" } = (.error e, w') ∧
    oneScenario.store.runs = [] ∧
    w'.store.runs.map (fun row => (row.id, row.status, row.finished)) = [(1, .running, none)] := by
  let w : Workspace := { oneScenario with
    disk := .dir [("r.json", .file (Text.Utf8.encode "[]"))]
    catalog := Catalog.empty.readFile "/x:rule" "Feature: A\nScenario: B" }
  have hfails : (Workspace.importReport "r.json" none w).1.isOk = false := by decide +kernel
  have hlog : (Workspace.importReport "r.json" none w).2.store.runs.map
      (fun row => (row.id, row.status, row.finished)) = [(1, .running, none)] := by
    decide +kernel
  rcases himport : Workspace.importReport "r.json" none w with ⟨e | r, w'⟩
  · rw [himport] at hlog
    exact ⟨e, w', rfl, rfl, hlog⟩
  · rw [himport] at hfails
    nomatch hfails

end FeatureRun.Run
