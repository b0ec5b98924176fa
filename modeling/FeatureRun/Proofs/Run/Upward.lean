import FeatureRun.Proofs.Catalog.Tree
import FeatureRun.Proofs.Outcome.Lines
import FeatureRun.Proofs.Run.Spanned

/-!
# Failures show from above

Whatever failed in a subtree fails every node on the way up to the feature: those that were selected
with it get a result of their own, and those above the selection are rolled up, which a failure
always settles. So no node of the chain is left with what was known about it before.

* `status_verdict_eq_failed_iff`: a node failed if something failed on a line in its subtree.
* `Says.failed_above`: what is said about the nodes above one that failed.
* `failure_reaches_feature`: the store after a report has been applied.
-/
set_option autoImplicit false

namespace FeatureRun.Run

open Report (Entry)
open Feature Catalog
open RollUp (FailsAt)

variable {c : Catalog} {report : List Entry} {file n : String} {f : Feature} {x y z : NodeRef}
  {r t : Result} {ids : List String}

/-- A node of the catalog failed if something failed on a line in its subtree. -/
theorem status_verdict_eq_failed_iff (h : c.Holds file f) (hx : f.Refers file x)
    (hr : (verdicts report file f).get? x.id = some r) :
    r.status = .failed ↔ ∃ y ∈ f.below x, FailsAt (outcomesFor report file) y := by
  obtain ⟨y, hid, hrolled⟩ := RollUp.exists_rolled_of_get? h.ordered hr
  obtain rfl := h.id_inj hrolled.refers hx hid
  exact hrolled.status_eq_failed_iff h.ordered

/-- So it fails with every node of its subtree. -/
theorem verdict_failed_of_below (h : c.Holds file f) (hx : f.Refers file x) (hy : y ∈ f.below x)
    (hr : (verdicts report file f).get? y.id = some r) (hfailed : r.status = .failed)
    (ht : (verdicts report file f).get? x.id = some t) : t.status = .failed := by
  have hyref := hx.below h.ordered hy
  obtain ⟨z, hz, hfails⟩ := (status_verdict_eq_failed_iff h hyref hr).1 hfailed
  have hzref := hyref.below h.ordered hz
  refine (status_verdict_eq_failed_iff h hx ht).2 ⟨z, ?_, hfails⟩
  rcases mem_above_of_mem_below h.ordered hyref hzref hz with rfl | hyz
  · exact hy
  rcases mem_above_of_mem_below h.ordered hx hyref hy with rfl | hxy
  · exact hz
  · exact mem_below_of_mem_above h.ordered hzref (above_trans hyz hxy)

/-- Whatever failed fails the whole entry of its file. -/
theorem fileFailed_of_verdict (h : c.Holds file f) (hx : f.Refers file x)
    (hr : (verdicts report file f).get? x.id = some r) (hfailed : r.status = .failed) :
    Outcome.fileFailed (some report) file = true := by
  obtain ⟨z, hz, hfails⟩ := (status_verdict_eq_failed_iff h hx hr).1 hfailed
  have hline : ∀ {m}, (∃ o ∈ RollUp.onLine (outcomesFor report file) m, o.passed = false) →
      ∃ o ∈ outcomesFor report file, o.passed = false := fun ⟨o, ho, hfalse⟩ =>
    ⟨o, (RollUp.mem_onLine.1 ho).1, hfalse⟩
  refine Outcome.fileFailed_iff.2 ?_
  cases z with
  | row => exact hline hfails
  | scenario => exact hline hfails
  | rule => exact hfails.elim
  | feature => exact hfails.elim

/-- What is stated about a node fails with anything below it. -/
theorem stated_failed_of_below (h : c.Holds file f) (hx : f.Refers file x) (hy : y ∈ f.below x)
    (hr : (verdicts report file f).get? y.id = some r) (hfailed : r.status = .failed)
    (ht : stated report f x = some t) : t.status = .failed := by
  have hfile := hx.file_eq
  by_cases hfeature : x = .feature x.file
  · have hwhole := fileFailed_of_verdict h (hx.below h.ordered hy) hr hfailed
    rw [hfeature, hfile] at ht
    cases ht
    rw [featureResult_eq, if_pos hwhole]
  · rw [stated_eq_verdict hfeature, hfile] at ht
    exact verdict_failed_of_below h hx hy hr hfailed ht

/-- About every node above one that failed it is said that it failed. -/
theorem Says.failed_above (hroot : c.IsRoot ids file f x) (hy : y ∈ f.below x)
    (hr : stated report f y = some r) (hfailed : r.status = .failed) (hz : z ∈ f.above y) :
    ∃ t, Says c report ids z.id t ∧ t.status = .failed := by
  have h := hroot.holds
  have hyref := hroot.refers.below h.ordered hy
  have hzref := hyref.above h.ordered hz
  -- nothing is above a feature, so what is said about `y` is its verdict
  have hverdict : (verdicts report file f).get? y.id = some r := by
    rw [stated_eq_verdict, hyref.file_eq] at hr
    · exact hr
    · intro hfeature
      rw [hfeature] at hz
      nomatch hz
  have hbelow : y ∈ f.below z := mem_below_of_mem_above h.ordered hyref hz
  have hpicked : z ∈ f.below x → ∃ t, Says c report ids z.id t ∧ t.status = .failed := by
    intro hzx
    obtain ⟨t, ht, -⟩ := exists_stated report hzref
    exact ⟨t, .inl ⟨file, f, x, hroot, z, hzx, rfl, ht⟩,
      stated_failed_of_below h hzref hbelow hverdict hfailed ht⟩
  have hrolled : z ∈ f.above x → ∃ t, Says c report ids z.id t ∧ t.status = .failed := by
    intro hzx
    obtain ⟨t, ht, -⟩ := exists_verdict report hzref
    have hstatus := verdict_failed_of_below h hzref hbelow hverdict hfailed ht
    exact ⟨t, .inr ⟨file, f, x, hroot, z, hzx, rfl, ht, by simp [isSettled, hstatus]⟩, hstatus⟩
  rcases mem_above_of_mem_below h.ordered hroot.refers hyref hy with rfl | hxy
  · exact hrolled hz
  rcases above_total hz hxy with rfl | hzx | hxz
  · exact hpicked (self_mem_below h.ordered hzref)
  · exact hrolled hzx
  · exact hpicked (mem_below_of_mem_above h.ordered hzref hxz)

/-- After a report has been applied, every node that failed is stored as failed, and so is every
node on the way from it up to its feature. -/
theorem failure_reaches_feature {ids : Option (List String)} {run : Option Int} {w : Workspace}
    (report : List Entry) (hc : w.catalog.Parsed) (hids : ∀ id ∈ ids.getD [], w.catalog.IsNode id)
    (hrun : run.all Store.fits = true) :
    ∃ results counts w', applyReport report ids none run w = (.ok (results, counts), w') ∧
      ∀ n r, results.get? n = some r → r.status = .failed →
        ∃ file f steps, w.catalog.get? file = some f ∧
          w.catalog.climb steps n = .ok (some file) ∧ w.catalog.climb (steps + 1) n = .ok none ∧
          ∀ k ≤ steps, ∃ m, w.catalog.climb k n = .ok (some m) ∧
            (w'.store.get? m).map Result.status = some .failed := by
  obtain ⟨roots, applied, w', h⟩ := exists_applies report ids hc hids hrun
  refine ⟨_, _, w', h.runs, fun n r hresult hfailed => ?_⟩
  obtain ⟨file, f, x, hroot, y, hy, rfl, hr⟩ := h.get?_results.1 hresult
  have hyref := hroot.refers.below hroot.holds.ordered hy
  have hstored : ∀ {m t}, Says w.catalog report (w.catalog.chosen ids) m t → t.status = .failed →
      (w'.store.get? m).map Result.status = some .failed := by
    intro m t ht hstatus
    rw [h.store, get?_recorded_of_says h.writes ht (by simp [hstatus]), Option.map_some, hstatus]
  refine ⟨file, f, (f.above y).length, hroot.holds.get, ?_, ?_, fun k hk => ?_⟩
  · rw [hroot.holds.climb_id hyref, getElem?_length_above hyref]
    rfl
  · rw [hroot.holds.climb_id hyref, List.getElem?_eq_none (by simp)]
    rfl
  · have hlt : k < (y :: f.above y).length := Nat.lt_succ_of_le hk
    refine ⟨(y :: f.above y)[k].id, ?_, ?_⟩
    · rw [hroot.holds.climb_id hyref, List.getElem?_eq_getElem hlt]
      rfl
    · rcases List.mem_cons.1 (List.getElem_mem hlt) with he | hz
      · rw [he]
        exact hstored (.inl (h.get?_results.1 hresult)) hfailed
      · obtain ⟨t, ht, hstatus⟩ := Says.failed_above hroot hy hr hfailed hz
        exact hstored ht hstatus

/-- A row of an outline in a rule is selected alone, and fails. -/
theorem failure_reaches_feature_of_row : ∃ (w : Workspace) (report : List Entry),
    w.catalog.Parsed ∧
    (∀ id ∈ ["a.feature:scenario:3:example:6"], w.catalog.IsNode id) ∧
    (some 1).all Store.fits = true ∧
    ∃ results counts w',
      applyReport report (some ["a.feature:scenario:3:example:6"]) none (some 1) w =
        (.ok (results, counts), w') ∧
      (results.get? "a.feature:scenario:3:example:6").map Result.status = some .failed ∧
      ∀ n r, results.get? n = some r → r.status = .failed →
        ∃ file f steps, w.catalog.get? file = some f ∧
          w.catalog.climb steps n = .ok (some file) ∧ w.catalog.climb (steps + 1) n = .ok none ∧
          ∀ k ≤ steps, ∃ m, w.catalog.climb k n = .ok (some m) ∧
            (w'.store.get? m).map Result.status = some .failed := by
  let text := "Feature: A\nRule: R\nScenario Outline: B\nExamples:\n| x |\n| 1 |"
  let outline : Scenario := ⟨"B", 3, true, [⟨6, "| 1 |"⟩]⟩
  let w : Workspace := { Workspace.start ⟨default, .empty, .new, "/", "", 0, 0, [], [], .usual⟩ with
    catalog := Catalog.empty.readFile "a.feature" text }
  let report : List Entry := [⟨"a.feature", [⟨"scenario", "B", some 6, [], [], []⟩]⟩]
  have hc : w.catalog.Parsed :=
    parsed_empty.readFile ⟨by decide, by decide, by decide⟩ ⟨by decide⟩
  have hget : w.catalog.get? "a.feature" =
      some ⟨"A", 1, "a.feature", [.rule ⟨"R", 2, [outline]⟩]⟩ := by decide
  have houtline : outline ∈ Feature.scenarios ⟨"A", 1, "a.feature", [.rule ⟨"R", 2, [outline]⟩]⟩ :=
    List.mem_singleton_self _
  have hids : ∀ id ∈ ["a.feature:scenario:3:example:6"], w.catalog.IsNode id := by
    intro id hid
    rw [List.mem_singleton.1 hid]
    exact (isNode_iff hc).2 ⟨_, _, .row "a.feature" 3 6, hc.holds hget,
      .row houtline (List.mem_singleton_self _), by decide⟩
  have hfailed : ((applyReport report (some ["a.feature:scenario:3:example:6"]) none (some 1)
      w).1.toOption.bind fun found =>
        (found.1.get? "a.feature:scenario:3:example:6").map Result.status) = some .failed := by
    decide +kernel
  have hrun : (some (1 : Int)).all Store.fits = true := by decide
  obtain ⟨results, counts, w', happly, hall⟩ :=
    @failure_reaches_feature (some ["a.feature:scenario:3:example:6"]) (some 1) w report hc hids
      hrun
  rw [happly] at hfailed
  exact ⟨w, report, hc, hids, by decide, results, counts, w', happly, hfailed, hall⟩

end FeatureRun.Run
