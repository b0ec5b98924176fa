import FeatureRun.Proofs.Run.Tests

/-!
# Applications that are cancelled between two nodes

A flag is looked at before each node that a report is applied to. Once it is set, the rest of the
nodes is left alone, and what has been done is what an application to the nodes before comes to.

* `applyUntil`, `applyReportUntil`: applying a report with a flag that is looked at.
* `applyReportUntil_eq`: that is an application that ends after a number of nodes.
* `cancelled_between_nodes`: it comes to an application to these nodes, and the store has nothing
  new about the others.
-/
set_option autoImplicit false

namespace FeatureRun.Run

open Report (Entry)
open Catalog Feature

/-- Applies a report to nodes one after another as long as the flag is not set. Before each node
the flag is looked at; `look` counts the looks. -/
def applyUntil (report : List Entry) (run : Option Int) (flag : Nat → Bool) (look : Nat)
    (results : Results) (counts : Summary) : List String → Action (Results × Summary)
  | [] => pure (results, counts)
  | id :: ids => do
    if flag look then
      Action.note [⟨.info, "Reconciliation cancelled, " ++ toString (id :: ids).length ++
        " node(s) left"⟩]
      return (results, counts)
    let found ← applyAllWith (record run) report results counts [id]
    applyUntil report run flag (look + 1) found.1 found.2 ids

/-- Applies a report to the selected nodes as long as the flag is not set. -/
def applyReportUntil (report : List Entry) (ids : Option (List String)) (flag : Nat → Bool)
    (run : Option Int) : Action (Results × Summary) := do
  applyUntil report run flag 0 .empty .empty (← selection ids)

variable {report : List Entry} {ids : Option (List String)} {run run' : Option Int}
  {flag : Nat → Bool} {look k : Nat} {results : Results} {counts : Summary} {w w' : Workspace}
  {roots : List String} {applied : List Applied} {n root : String}

theorem applyAll_cons (report : List Entry) (run : Option Int) (results : Results)
    (counts : Summary) (id : String) (ids : List String) :
    applyAllWith (record run) report results counts (id :: ids) = (do
      let found ← applyAllWith (record run) report results counts [id]
      applyAllWith (record run) report found.1 found.2 ids) := by
  simp only [applyAllWith, bind_assoc]
  refine bind_congr fun w => bind_congr fun found => ?_
  cases found with
  | none => simp only [pure_bind]
  | some a => simp only [bind_assoc, pure_bind]

/-- As long as the flag is not set, the nodes before the look at which it is are gone through. -/
theorem applyUntil_eq {ids : List String} (hk : k < ids.length)
    (hunset : ∀ i < k, flag (look + i) = false) (hset : flag (look + k) = true) :
    applyUntil report run flag look results counts ids = (do
      let found ← applyAllWith (record run) report results counts (ids.take k)
      Action.note [⟨.info, "Reconciliation cancelled, " ++ toString (ids.length - k) ++
        " node(s) left"⟩]
      return found) := by
  induction ids generalizing k look results counts with
  | nil => exact absurd hk (Nat.not_lt_zero k)
  | cons id ids ih =>
    cases k with
    | zero =>
      have hnow : flag look = true := hset
      simp [applyUntil, applyAllWith, hnow]
    | succ k =>
      have hnow : flag look = false := hunset 0 (by omega)
      have hlater : ∀ i < k, flag (look + 1 + i) = false := by
        intro i hi
        have h := hunset (i + 1) (by omega)
        rwa [show look + (i + 1) = look + 1 + i by omega] at h
      have hlast : flag (look + 1 + k) = true := by
        rwa [show look + (k + 1) = look + 1 + k by omega] at hset
      have hk' : k < ids.length := by simpa using hk
      have hleft : (id :: ids).length - (k + 1) = ids.length - k := by simp
      simp only [applyUntil, hnow, List.take_succ_cons, hleft]
      rw [applyAll_cons report run results counts id (ids.take k)]
      simp only [bind_assoc, ih hk' hlater hlast, Bool.false_eq_true, if_false]

/-- With a flag that is set at the look after `k` nodes the application ends after these. -/
theorem applyReportUntil_eq (hselect : w.catalog.select ids = .ok roots) (hk : k < roots.length)
    (hunset : ∀ i < k, flag i = false) (hset : flag k = true) :
    applyReportUntil report ids flag run w = applyReport report ids (some k) run w := by
  have hcount : ((some k).getD roots.length).min roots.length = k :=
    Nat.min_eq_left (Nat.le_of_lt hk)
  rw [applyReportUntil, applyReport, applyReportWith, Action.bind_ok (selection_ok hselect),
    Action.bind_ok (selection_ok hselect)]
  simp only [hcount]
  rw [applyUntil_eq hk (by simpa using hunset) (by simpa using hset)]
  simp [hk]

/-! ## What is left alone -/

/-- A node lies in the subtree of each node above it. -/
theorem within_of_over {c : Catalog} (hc : c.Parsed) (hroot : c.IsNode root) (h : c.Over n root) :
    c.Within root n := by
  obtain ⟨file, f, x, hf, hx, rfl⟩ := (isNode_iff hc).1 hroot
  obtain ⟨y, hy, rfl⟩ := (hf.over_iff hx).1 h
  exact (hf.within_iff (hx.above hf.ordered hy)).2
    ⟨x, mem_below_of_mem_above hf.ordered hx hy, rfl⟩

/-- An application writes nothing but rows in the subtrees of its roots and above them. -/
theorem Applies.get?_rows_of_outside (h : Applies report ids run w roots applied w')
    (hout : ∀ root ∈ roots, ¬w.catalog.Within n root ∧ ¬w.catalog.Over n root) :
    w'.store.rows.get? n = w.store.rows.get? n := by
  have heffect : Effect report roots _ w
      { w with store := recorded w run (applied.flatMap Applied.writes), journal := w.journal } :=
    effect_of_recorded h.isRoot (fun _ _ => h.get?_results) h.writes
  rw [h.store]
  exact heffect.frame n hout

section Rest

variable (hc : w.catalog.Parsed) (hids : ∀ id ∈ ids.getD [], w.catalog.IsNode id)
  (hselect : w.catalog.select ids = .ok roots)

include hc hids hselect in
/-- The subtrees of the roots that are gone through and of the rest have no node in common. -/
theorem not_within_of_rest {done : String} (hroot : root ∈ roots.drop k)
    (hdone : done ∈ roots.take k) (h : w.catalog.Within n root) : ¬w.catalog.Within n done := by
  intro hwithin
  obtain ⟨roots', hselect', hroots⟩ := select_eq hc hids
  cases hselect.symm.trans hselect'
  obtain rfl : root = done := eq_of_within_roots hroots (List.mem_of_mem_drop hroot)
    (List.mem_of_mem_take hdone) h hwithin
  have hnodup := nodup_of_select hselect
  rw [← List.take_append_drop k roots] at hnodup
  exact (List.nodup_append.1 hnodup).2.2 root hdone root hroot rfl

include hc hids hselect in
/-- What lies in the subtree of a root of the rest is outside of what is gone through. -/
theorem outside_of_within_rest (hroot : root ∈ roots.drop k) (h : w.catalog.Within n root) :
    ∀ done ∈ roots.take k, ¬w.catalog.Within n done ∧ ¬w.catalog.Over n done := by
  have hnode := isNode_of_select hc hids hselect
  intro done hdone
  refine ⟨not_within_of_rest hc hids hselect hroot hdone h, fun hover => ?_⟩
  have hdoneNode := hnode done (List.mem_of_mem_take hdone)
  -- the subtree of the root would have all of that of the other one
  have hin : w.catalog.Within done root :=
    (within_of_over hc hdoneNode hover).trans hc (hnode root (List.mem_of_mem_drop hroot)) h
  exact not_within_of_rest hc hids hselect hroot hdone hin (hdoneNode.within_self hc)

include hc hids hselect in
/-- So is what lies above a root of the rest, unless it lies above one that is gone through. -/
theorem outside_of_over_rest (hroot : root ∈ roots.drop k) (h : w.catalog.Over n root)
    (hnot : ∀ done ∈ roots.take k, ¬w.catalog.Over n done) :
    ∀ done ∈ roots.take k, ¬w.catalog.Within n done ∧ ¬w.catalog.Over n done := by
  have hnode := isNode_of_select hc hids hselect
  intro done hdone
  refine ⟨fun hwithin => ?_, hnot done hdone⟩
  have hrootNode := hnode root (List.mem_of_mem_drop hroot)
  have hin : w.catalog.Within root done :=
    (within_of_over hc hrootNode h).trans hc (hnode done (List.mem_of_mem_take hdone)) hwithin
  exact not_within_of_rest hc hids hselect hroot hdone (hrootNode.within_self hc) hin

end Rest

/-- Applications to the same roots say the same. -/
theorem Applies.applied_eq {ids' : Option (List String)} {w₁ w₂ v : Workspace}
    {applied' : List Applied} (h : Applies report ids run w roots applied w₁)
    (h' : Applies report ids' run' v roots applied' w₂) (hcatalog : v.catalog = w.catalog)
    (hroot : v.root = w.root) : applied = applied' := by
  have hsaid := h'.said
  rw [hcatalog, hroot, h.said] at hsaid
  have hinj : Function.Injective fun a : Applied => (.ok (some a) : Lookup (Option Applied)) := by
    intro a b heq
    simpa using heq
  exact List.map_injective_iff.2 hinj hsaid

/-- If the flag is first set at the look after `k` roots of a selection, the application ends there.
It gives the results and counts of an application to the first `k` roots and leaves a store that
reads alike. It writes nothing below the other roots, nor above them where it is not above one of
the first. -/
theorem cancelled_between_nodes (report : List Entry) {ids : Option (List String)}
    {run run' : Option Int} {w : Workspace} (hc : w.catalog.Parsed)
    (hids : ∀ id ∈ ids.getD [], w.catalog.IsNode id) (hrun : run.all Store.fits = true)
    (hrun' : run'.all Store.fits = true) (now : String) :
    ∃ roots, w.catalog.select ids = .ok roots ∧ ∀ k flag, k < roots.length →
      (∀ i < k, flag i = false) → flag k = true →
      ∃ results counts w₁ w₂,
        applyReportUntil report ids flag run w = (.ok (results, counts), w₁) ∧
        applyReport report ids (some k) run w = (.ok (results, counts), w₁) ∧
        applyReport report (some (roots.take k)) none run' { w with stamp := now } =
          (.ok (results, counts), w₂) ∧
        (∀ n, w₁.store.get? n = w₂.store.get? n) ∧
        (∀ root ∈ roots.drop k, ∀ n, w.catalog.Within n root →
          w₁.store.rows.get? n = w.store.rows.get? n) ∧
        ∀ root ∈ roots.drop k, ∀ n, w.catalog.Over n root →
          (∀ done ∈ roots.take k, ¬w.catalog.Over n done) →
          w₁.store.rows.get? n = w.store.rows.get? n := by
  obtain ⟨roots, hselect, -⟩ := select_eq hc hids
  refine ⟨roots, hselect, fun k flag hk hunset hset => ?_⟩
  obtain ⟨applied, w₁, journal, happlies, hcut⟩ :=
    exists_applies_cut report ids (some k) hc hids hrun hselect
  have hnodes : ∀ id ∈ roots.take k, w.catalog.IsNode id := fun id hid =>
    isNode_of_select hc hids hselect id (List.mem_of_mem_take hid)
  obtain ⟨roots', applied', w₂, happlies'⟩ :=
    exists_applies (w := { w with stamp := now }) report (some (roots.take k)) hc hnodes hrun'
  cases happlies.selects.symm.trans happlies'.selects
  obtain rfl := happlies.applied_eq happlies' rfl rfl
  refine ⟨_, _, _, w₂, (applyReportUntil_eq hselect hk hunset hset).trans hcut, hcut,
    happlies'.runs, ?_, ?_, ?_⟩
  · intro n
    exact happlies.get?_store_congr happlies' (fun r => Iff.rfl) rfl
  · intro root hroot n hwithin
    exact happlies.get?_rows_of_outside (outside_of_within_rest hc hids hselect hroot hwithin)
  · intro root hroot n hover hnot
    exact happlies.get?_rows_of_outside (outside_of_over_rest hc hids hselect hroot hover hnot)

/-- Two scenarios of a feature are selected, and the flag is set between them. -/
theorem cancelled_between_nodes_of_two : ∃ w : Workspace, w.catalog.Parsed ∧
    (∀ id ∈ ["a.feature:scenario:2", "a.feature:scenario:3"], w.catalog.IsNode id) ∧
    ∃ results counts w₁ w₂,
      applyReportUntil [⟨"a.feature", []⟩] (some ["a.feature:scenario:2", "a.feature:scenario:3"])
        (fun look => look == 1) (some 1) w = (.ok (results, counts), w₁) ∧
      applyReport [⟨"a.feature", []⟩] (some ["a.feature:scenario:2"]) none (some 2)
        { w with stamp := "noon" } = (.ok (results, counts), w₂) ∧
      (∀ n, w₁.store.get? n = w₂.store.get? n) ∧
      ∀ n, w.catalog.Within n "a.feature:scenario:3" →
        w₁.store.rows.get? n = w.store.rows.get? n := by
  let text := "Feature: A\nScenario: B\nScenario: C"
  let c := Catalog.empty.readFile "a.feature" text
  have hc : c.Parsed := parsed_empty.readFile ⟨by decide, by decide, by decide⟩ ⟨by decide⟩
  let b : Scenario := ⟨"B", 2, false, []⟩
  let b' : Scenario := ⟨"C", 3, false, []⟩
  have h : c.Holds "a.feature" ⟨"A", 1, "a.feature", [.scenario b, .scenario b']⟩ :=
    hc.holds (by decide)
  have hfirst : c.IsNode "a.feature:scenario:2" :=
    (isNode_iff hc).2 ⟨_, _, _, h, .scenario (s := b) (by decide), by decide⟩
  have hsecond : c.IsNode "a.feature:scenario:3" :=
    (isNode_iff hc).2 ⟨_, _, _, h, .scenario (s := b') (by decide), by decide⟩
  let w : Workspace :=
    { Workspace.start ⟨default, .empty, .new, "/", "", 0, 0, [], [], .usual⟩ with catalog := c }
  let ids := ["a.feature:scenario:2", "a.feature:scenario:3"]
  have hids : ∀ id ∈ (some ids).getD [], w.catalog.IsNode id := by simp [ids, w, hfirst, hsecond]
  have hrun : (some 1).all Store.fits = true := by decide
  have hrun' : (some 2).all Store.fits = true := by decide
  refine ⟨w, hc, hids, ?_⟩
  obtain ⟨roots, hselect, hcancelled⟩ :=
    cancelled_between_nodes [⟨"a.feature", []⟩] (w := w) hc hids hrun hrun' "noon"
  have hvalue : c.select (some ["a.feature:scenario:2", "a.feature:scenario:3"]) =
      .ok ["a.feature:scenario:2", "a.feature:scenario:3"] := by decide +kernel
  cases hselect.symm.trans hvalue
  obtain ⟨results, counts, w₁, w₂, huntil, -, hfirstOnly, hstore, hbelow, -⟩ :=
    hcancelled 1 (fun look => look == 1) (by decide) (by decide) rfl
  exact ⟨results, counts, w₁, w₂, huntil, hfirstOnly, hstore,
    hbelow "a.feature:scenario:3" (by decide)⟩

end FeatureRun.Run
