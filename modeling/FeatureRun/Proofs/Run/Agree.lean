import FeatureRun.Proofs.Run.Encoded
import FeatureRun.Proofs.Run.FailClosed
import FeatureRun.Proofs.Run.Tests
import FeatureRun.Proofs.Text.Utf8

/-!
# All views of a run agree

Whether a run passed is told by its result, by the log of runs, by the status bar and by the results
of its nodes, and each of them works it out for itself: the log looks at the counts where no result
failed. They agree since the counts are those of the results over the tests that were selected.

* `Reconciles`: a run or an import that gets as far as applying a report.
* `Agree`: what all views of a run say.
* `views_agree`: they do so after every such run, unless there are more tests than the store can
  count, or the report says something that cannot be stored.
-/
set_option autoImplicit false

namespace FeatureRun.Run

open Report (Entry Stage)
open Feature Catalog

/-- The action applies a report to the roots of a selection, or to so many of them: a run whose
runner leaves a report in time, or an import of a report. -/
inductive Reconciles (w : Workspace) (ids : Option (List String)) (roots : List String)
    (run : Int) (report : List Entry) : Option Nat → Action RunResult → Prop where
  | ran {runner : Runner} {cancelAfter : Option Nat} {targets : List Target} {file : Path}
    {code : Int} {w₁ w₂ : Workspace}
    (hselect : w.catalog.select ids = .ok roots) (hsome : roots ≠ [])
    (henter : enter roots w = (.ok (targets, run), w₁))
    (hrelease : release runner targets w₁ = (.ok (file, .ok code), w₂))
    (hfound : awaited file (laterStages runner) w₂ = .ok (some report)) :
    Reconciles w ids roots run report cancelAfter (Workspace.run runner ids cancelAfter)
  | imported {path : String} {w₁ : Workspace}
    (hread : readReport path w = .ok report) (hselect : w.catalog.select ids = .ok roots)
    (hstart : startRun roots w = (.ok run, w₁)) :
    Reconciles w ids roots run report none (Workspace.importReport path ids)

/-- All views of a run say the same about it; the report was applied to these roots. -/
structure Agree (roots : List String) (run : Int) (w : Workspace) (r : RunResult)
    (w' : Workspace) : Prop where
  /-- A run succeeds if nothing failed, -/
  success : r.success = true ↔ ∀ n t, r.results.get? n = some t → t.status ≠ .failed
  /-- the newest row of the log says so and has the same counts, -/
  log : ∃ row, w'.store.runs.head? = some row ∧ row.id = run ∧
    row.status = (if r.success then .passed else .failed) ∧ row.counts = r.summary
  /-- and so does the status bar. -/
  bar : w'.status.state = if r.success then .passed else .failed
  sum : r.summary.total = r.summary.passed + r.summary.failed + r.summary.unmatched
  failed : 0 < r.summary.failed → r.success = false
  /-- Every test below the roots is counted, once. -/
  tests : ∃ tests : List String, tests.Nodup ∧ r.summary.total = tests.length ∧
    ∀ n, n ∈ tests ↔ w.catalog.IsTest n ∧ ∃ root ∈ roots, w.catalog.Within n root

variable {runner : Runner} {ids : Option (List String)} {cancelAfter : Option Nat}
  {roots : List String} {run : Int} {report : List Entry} {r : RunResult} {results : Results}
  {counts : Summary}
  {tests : List String} {act : Action RunResult} {w w₀ w₁ w₂ w' : Workspace}

/-! ## Counts and verdict -/

/-- Counts fit if their total does. -/
theorem countsFit_countLeaves_iff :
    CountsFit (countLeaves results tests) ↔ Store.fits tests.length = true := by
  rw [countLeaves_eq, countsFit_tally_iff, List.length_map]

theorem any_failed_iff : (results.values.any fun t => t.status = .failed) = true ↔
    ∃ n t, results.get? n = some t ∧ t.status = .failed := by
  simp only [List.any_eq_true, decide_eq_true_eq, OrderedMap.mem_values_iff]
  constructor
  · rintro ⟨t, ⟨n, hn⟩, ht⟩
    exact ⟨n, t, hn, ht⟩
  · rintro ⟨n, t, hn, ht⟩
    exact ⟨t, ⟨n, hn⟩, ht⟩

/-- What is counted as failed is among the results. -/
theorem any_failed_of_counted (h : 0 < (countLeaves results tests).failed) :
    (results.values.any fun t => t.status = .failed) = true := by
  rw [countLeaves_eq, failed_tally_pos_iff] at h
  obtain ⟨n, -, hn⟩ := List.mem_map.1 h
  cases hget : results.get? n with
  | none => simp [statusIn, hget] at hn
  | some t =>
    rw [statusIn, hget] at hn
    exact any_failed_iff.2 ⟨n, t, hget, hn⟩

/-- The status in the log follows the results. -/
theorem endStatus_countLeaves : Store.endStatus (countLeaves results tests) (statusBy results) =
    if results.values.any fun t => t.status = .failed then .failed else .passed := by
  rw [statusBy, Store.endStatus]
  split
  · rfl
  · rename_i hnone
    have hzero : (countLeaves results tests).failed = 0 := by
      have hnonneg : 0 ≤ (countLeaves results tests).failed :=
        countLeaves_eq results tests ▸ failed_tally_nonneg _
      have hpos : ¬0 < (countLeaves results tests).failed := mt any_failed_of_counted hnone
      omega
    simp [Summary.success, hzero]

theorem state_shownBy (b : StatusBar) : (shownBy (results, counts) b).state =
    if results.values.any fun t => t.status = .failed then .failed else .passed := by
  rw [shownBy]
  split
  · unfold StatusBar.failed
    split <;> rfl
  · rfl

/-! ## Finishing -/

/-- A run that is finished with the counts of its results shows them everywhere. -/
theorem agree_of_finish (hentered : Entered roots run w w₁) (hlogged : logged w₂ = logged w₁)
    (hfits : Store.fits tests.length = true) (hnodup : tests.Nodup) {part : List String}
    (htests : ∀ n, n ∈ tests ↔ w.catalog.IsTest n ∧ ∃ root ∈ part, w.catalog.Within n root) :
    ∃ r w', finish run (results, countLeaves results tests) w₂ = (.ok r, w') ∧
      Agree part run w r w' := by
  have hcounts : CountsFit (countLeaves results tests) := countsFit_countLeaves_iff.2 hfits
  rcases hfinish : finish run (results, countLeaves results tests) w₂ with ⟨out, w'⟩
  obtain ⟨rfl, rfl⟩ := Prod.mk.inj (hfinish.symm.trans (finish_apply hentered.fits hcounts))
  refine ⟨_, _, rfl, ?_⟩
  constructor
  case success =>
    have hany : (results.values.any fun t => t.status = .failed) = false ↔
        ∀ n t, results.get? n = some t → t.status ≠ .failed := by
      rw [← Bool.not_eq_true, any_failed_iff]
      exact ⟨fun h n t hn ht => h ⟨n, t, hn, ht⟩, fun h ⟨n, t, hn, ht⟩ => h n t hn ht⟩
    rw [← hany]
    exact Iff.of_eq (Bool.not_eq_true' _)
  case log =>
    refine ⟨_, log_of_finish hentered hlogged hfinish, rfl, ?_, rfl⟩
    refine endStatus_countLeaves.trans ?_
    cases results.values.any fun t => t.status = .failed <;> rfl
  case bar =>
    refine (state_shownBy w₂.status).trans ?_
    cases results.values.any fun t => t.status = .failed <;> rfl
  case sum =>
    rw [countLeaves_eq]
    exact total_tally _
  case failed =>
    intro hpos
    exact congrArg (!·) (any_failed_of_counted hpos)
  case tests =>
    refine ⟨tests, hnodup, ?_, htests⟩
    rw [countLeaves_eq]
    exact congrArg Nat.cast (List.length_map _)

/-- Unless there are too many tests, all views of a run agree once the report has been applied to
roots of its selection. -/
theorem agree_of_applies {report : List Entry} {applied : List Applied} (hc : w.catalog.Parsed)
    (hentered : Entered roots run w w₀) {part : List String}
    (hpart : ∀ id ∈ part, w.catalog.IsNode id)
    (happlies : Applies report (some part) (some run) w₀ part applied w₁)
    (hlogged : logged w₂ = logged w₀) {out : Except Fault RunResult}
    (h : finish run (.ofList (applied.flatMap fun a => a.picked.entries),
      applied.foldl (fun sum a => sum + a.counts) .empty) w₂ = (out, w')) :
    (Store.fits (part.flatMap w.catalog.testsBelow).length = true →
      ∃ r, out = .ok r ∧ Agree part run w r w') ∧
    (¬Store.fits (part.flatMap w.catalog.testsBelow).length = true →
      out = .error (.store .tooLarge)) := by
  rw [happlies.counts_eq, hentered.catalog] at h
  refine ⟨fun hfits => ?_, fun hfits => ?_⟩
  · have hnodup : (part.flatMap w.catalog.testsBelow).Nodup := by
      rw [← hentered.catalog]
      exact nodup_testsBelow_roots (nodup_of_select happlies.selects) fun id hid =>
        (happlies.isRoot id).1 hid
    have htests : ∀ n, n ∈ part.flatMap w.catalog.testsBelow ↔
        w.catalog.IsTest n ∧ ∃ root ∈ part, w.catalog.Within n root := by
      intro n
      rw [List.mem_flatMap]
      constructor
      · rintro ⟨root, hroot, hn⟩
        obtain ⟨htest, hwithin⟩ := (mem_testsBelow_iff hc (hpart root hroot)).1 hn
        exact ⟨htest, root, hroot, hwithin⟩
      · rintro ⟨htest, root, hroot, hwithin⟩
        exact ⟨root, hroot, (mem_testsBelow_iff hc (hpart root hroot)).2 ⟨htest, hwithin⟩⟩
    obtain ⟨r, w₃, hfinish, hagree⟩ := agree_of_finish hentered hlogged hfits hnodup htests
    cases hfinish.symm.trans h
    exact ⟨r, rfl, hagree⟩
  · rw [finish_error (mt countsFit_countLeaves_iff.1 hfits)] at h
    cases h
    rfl

/-- Once a run has been entered, a report is applied to its roots, or to so many of them. -/
theorem exists_applies_entered {report : List Entry} (hc : w.catalog.Parsed)
    (hids : ∀ id ∈ ids.getD [], w.catalog.IsNode id)
    (hselect : w.catalog.select ids = .ok roots) (hentered : Entered roots run w w₀)
    (hstorable : Storable w.catalog report (roots.take (cancelAfter.getD roots.length))) :
    ∃ applied w₁ w₂, Applies report (some (roots.take (cancelAfter.getD roots.length))) (some run)
        w₀ (roots.take (cancelAfter.getD roots.length)) applied w₁ ∧
      applyReportWith (recordEncoded (some run)) report (some roots) cancelAfter w₀ =
        (.ok (.ofList (applied.flatMap fun a => a.picked.entries),
          applied.foldl (fun sum a => sum + a.counts) .empty), w₂) := by
  have hagain := select_of_sublist hselect (List.Sublist.refl roots)
  have hnodes : ∀ id ∈ (some roots).getD [], w.catalog.IsNode id :=
    isNode_of_select hc hids hselect
  rw [← hentered.catalog] at hc hagain hnodes hstorable
  have hfits : (some run).all Store.fits = true := hentered.fits
  obtain ⟨applied, w₁, journal, happlies, happly⟩ :=
    exists_applies_cut report (some roots) cancelAfter hc hnodes hfits hagain
  rcases applyReport_cases report cancelAfter hc hnodes hagain hfits with
    ⟨-, found, w₂, hencoded⟩ | ⟨hunstorable, -⟩
  · have hfound := happly.symm.trans (applyReport_of_encoded hencoded)
    rw [← Except.ok.inj (Prod.mk.inj hfound).1] at hencoded
    exact ⟨applied, w₁, w₂, happlies, hencoded⟩
  · exact absurd hstorable hunstorable

theorem Reconciles.select (h : Reconciles w ids roots run report cancelAfter act) :
    w.catalog.select ids = .ok roots := by
  cases h with
  | ran hselect => exact hselect
  | imported _ hselect => exact hselect

/-- Once the report is there, everything hangs on applying it. -/
theorem Reconciles.exists_apply (h : Reconciles w ids roots run report cancelAfter act) :
    ∃ w₀, Entered roots run w w₀ ∧ ∀ out w₁,
      applyReportWith (recordEncoded (some run)) report (some roots) cancelAfter w₀ = (out, w₁) →
      ∃ w₂, logged w₂ = logged w₁ ∧
        act w = match out with
          | .ok found => finish run found w₂
          | .error e => (.error e, w₂) := by
  cases h with
  | @ran runner _ targets file code _ _ hselect hsome henter hrelease hfound =>
    obtain ⟨w₀, hkeep, hcollect⟩ := collect_some hfound
    have hentered := ((entered_of_enter henter).of_release hrelease).of_offDisk hkeep
    refine ⟨w₀, hentered, fun out w₁ happly =>
      ⟨{ w₁ with disk := w₁.disk.unlink file }, rfl, ?_⟩⟩
    rw [run_eq hselect hsome, Action.bind_ok henter, Action.bind_ok hrelease]
    cases out with
    | ok found => exact conclude_of_collect_some (hcollect _ _ happly)
    | error e => exact conclude_of_collect_error (hcollect _ _ happly)
  | @imported path _ hread hselect hstart =>
    refine ⟨_, entered_of_startRun hstart, fun out w₁ happly => ⟨w₁, rfl, ?_⟩⟩
    rw [importReport_eq hread hselect, Action.bind_ok hstart]
    cases out with
    | ok found => exact Action.bind_ok happly
    | error e => exact Action.bind_error happly

section Views

variable (hc : w.catalog.Parsed) (hids : ∀ id ∈ ids.getD [], w.catalog.IsNode id)
  (h : Reconciles w ids roots run report cancelAfter act)

include hc hids h

/-- What applies a report that can be stored ends by finishing the run with what it has found. -/
theorem Reconciles.exists_finish
    (hstorable : Storable w.catalog report (roots.take (cancelAfter.getD roots.length))) :
    ∃ applied w₀ w₁ w₂, Entered roots run w w₀ ∧
      Applies report (some (roots.take (cancelAfter.getD roots.length))) (some run) w₀
        (roots.take (cancelAfter.getD roots.length)) applied w₁ ∧
      logged w₂ = logged w₀ ∧
      act w = finish run (.ofList (applied.flatMap fun a => a.picked.entries),
        applied.foldl (fun sum a => sum + a.counts) .empty) w₂ := by
  obtain ⟨w₀, hentered, hact⟩ := h.exists_apply
  obtain ⟨applied, w₁, w₂, happlies, happly⟩ :=
    exists_applies_entered hc hids h.select hentered hstorable
  have hlogged : logged w₂ = logged w₀ := logged_of_unrecorded
    ((keeps_applyReportWith (keeps_recordEncoded (some run)) _ _ _).apply happly)
  obtain ⟨w₃, hdone, hact⟩ := hact _ _ happly
  exact ⟨applied, w₀, w₁, w₃, hentered, happlies, hdone.trans hlogged, hact⟩

/-- What applies a report that cannot be stored breaks off. -/
theorem Reconciles.exists_unencodable
    (hstorable : ¬Storable w.catalog report (roots.take (cancelAfter.getD roots.length))) :
    ∃ f w', act w = (.error (.unencodable f), w') := by
  obtain ⟨w₀, hentered, hact⟩ := h.exists_apply
  have hagain := select_of_sublist h.select (List.Sublist.refl roots)
  have hnodes : ∀ id ∈ (some roots).getD [], w.catalog.IsNode id :=
    isNode_of_select hc hids h.select
  rw [← hentered.catalog] at hc hagain hnodes hstorable
  rcases applyReport_cases report cancelAfter hc hnodes hagain
    (show (some run).all Store.fits = true from hentered.fits) with ⟨hall, -⟩ | ⟨-, f, w₁, happly⟩
  · exact absurd hall hstorable
  · obtain ⟨w₂, -, hact⟩ := hact _ _ happly
    exact ⟨f, w₂, hact⟩

/-- All views agree after every run or import that applies a report, cancelled or not. It fails only
if there are more tests below the roots than the store can count, or if something that the report
says about them cannot be stored. -/
theorem views_agree :
    (Storable w.catalog report (roots.take (cancelAfter.getD roots.length)) →
      (Store.fits ((roots.take (cancelAfter.getD roots.length)).flatMap
          w.catalog.testsBelow).length = true →
        ∃ r w', act w = (.ok r, w') ∧
          Agree (roots.take (cancelAfter.getD roots.length)) run w r w') ∧
      (¬Store.fits ((roots.take (cancelAfter.getD roots.length)).flatMap
          w.catalog.testsBelow).length = true →
        ∃ w', act w = (.error (.store .tooLarge), w'))) ∧
    (¬Storable w.catalog report (roots.take (cancelAfter.getD roots.length)) →
      ∃ f w', act w = (.error (.unencodable f), w')) := by
  refine ⟨fun hstorable => ?_, h.exists_unencodable hc hids⟩
  have hpart : ∀ id ∈ roots.take (cancelAfter.getD roots.length), w.catalog.IsNode id :=
    fun id hid => isNode_of_select hc hids h.select id (List.mem_of_mem_take hid)
  obtain ⟨applied, w₀, w₁, w₂, hentered, happlies, hlogged, hact⟩ :=
    h.exists_finish hc hids hstorable
  rcases hfinish : finish run (.ofList (applied.flatMap fun a => a.picked.entries),
    applied.foldl (fun sum a => sum + a.counts) .empty) w₂ with ⟨out, w'⟩
  obtain ⟨hfits, hbig⟩ := agree_of_applies hc hentered hpart happlies hlogged hfinish
  rw [hact, hfinish]
  constructor
  · intro hcount
    obtain ⟨r, rfl, hagree⟩ := hfits hcount
    exact ⟨r, w', rfl, hagree⟩
  · intro hcount
    obtain rfl := hbig hcount
    exact ⟨w', rfl⟩

end Views

/-- A report that is imported for a feature whose scenario has no steps. -/
theorem views_agree_of_import : ∃ (w : Workspace) (report : List Entry), w.catalog.Parsed ∧
    (∀ id ∈ (some ["/a.feature"]).getD [], w.catalog.IsNode id) ∧
    Reconciles w (some ["/a.feature"]) ["/a.feature"] 1 report none
      (Workspace.importReport "/report.json" (some ["/a.feature"])) ∧
    ∃ r w', Workspace.importReport "/report.json" (some ["/a.feature"]) w = (.ok r, w') ∧
      Agree ["/a.feature"] 1 w r w' := by
  let text :=
    "[\x7b\"uri\": \"/a.feature\", \"elements\": [\x7b\"name\": \"B\", \"line\": 2\x7d]\x7d]"
  let w : Workspace :=
    { oneScenario with disk := .dir [("report.json", .file (Text.Utf8.encode text))] }
  have hc : w.catalog.Parsed :=
    parsed_empty.readFile ⟨by decide, by decide, by decide⟩ ⟨by decide⟩
  have hget : w.catalog.get? "/a.feature" =
      some ⟨"A", 1, "/a.feature", [.scenario ⟨"B", 2, false, []⟩]⟩ := by decide
  have hids : ∀ id ∈ (some ["/a.feature"]).getD [], w.catalog.IsNode id := by
    intro id hid
    obtain rfl := List.mem_singleton.1 hid
    exact (isNode_iff hc).2 ⟨_, _, .feature "/a.feature", hc.holds hget, .feature, rfl⟩
  have hok : (readReport "/report.json" w).toOption.any
      (fun report => report.all fun e => e.texts.all Text.isWhole) = true := by decide +kernel
  cases hread : readReport "/report.json" w with
  | error e =>
    rw [hread] at hok
    cases hok
  | ok report =>
    rw [hread] at hok
    have hwhole : Report.AllWhole report := fun e he =>
      List.all_eq_true.1 (List.all_eq_true.1 hok e he)
    have h : Reconciles w (some ["/a.feature"]) ["/a.feature"] 1 report none
        (Workspace.importReport "/report.json" (some ["/a.feature"])) :=
      .imported hread rfl rfl
    have hstorable : Storable w.catalog report (["/a.feature"].take ((none : Option Nat).getD 1)) :=
      storable_of_allWhole hwhole (by decide)
    exact ⟨w, report, hc, hids, h, ((views_agree hc hids h).1 hstorable).1 (by decide +kernel)⟩

end FeatureRun.Run
