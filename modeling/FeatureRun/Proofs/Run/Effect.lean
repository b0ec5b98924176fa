import FeatureRun.Proofs.Catalog.Cover
import FeatureRun.Proofs.Run.Reconcile

/-!
# The effect of applying a report

A report is applied to the roots of a selection one after another. What that comes to is said node by
node: which results are given back, what the store then holds, and what stays as it was.

* `Effect`: the effect on results and store, node by node.
* `applyReport_effect`: applying a report has this effect.
-/
set_option autoImplicit false

namespace FeatureRun

open Report (Entry)
open Feature

namespace Run

open Catalog

/-- What applying a report to the roots of a selection does to the workspace `w`. -/
structure Effect (report : List Entry) (roots : List String) (results : Results)
    (w w' : Workspace) : Prop where
  /-- There are results for the subtrees of the roots and for nothing else. -/
  keys : ∀ n, n ∈ results.keys ↔ ∃ root ∈ roots, w.catalog.Within n root
  /-- A feature among the roots failed if and only if the entry of its file has a failure. -/
  features : ∀ n ∈ roots, NodeRef.read n = .ok (.feature n) → ∃ failures, results.get? n =
    some ⟨n, if Outcome.fileFailed (some report) n then .failed else .passed, failures⟩
  /-- Every other result is that of the roll-up of its file. -/
  nodes : ∀ n ∈ results.keys, ¬(n ∈ roots ∧ NodeRef.read n = .ok (.feature n)) →
    ∃ ref f, NodeRef.read n = .ok ref ∧ w.catalog.get? ref.file = some f ∧
      results.get? n = (verdicts report ref.file f).get? n
  /-- The store holds every result that is not `unmatched`, -/
  kept : ∀ n r, results.get? n = some r → r.status ≠ .unmatched → w'.store.get? n = some r
  /-- and keeps what it had where the result is. -/
  unmatched : ∀ n r, results.get? n = some r → r.status = .unmatched →
    w'.store.rows.get? n = w.store.rows.get? n
  /-- Above the roots it holds what the roll-up settles, and else keeps what it had. -/
  above : ∀ root ∈ roots, ∀ n, w.catalog.Over n root →
    ∃ ref f r, NodeRef.read n = .ok ref ∧ w.catalog.get? ref.file = some f ∧
      (verdicts report ref.file f).get? n = some r ∧
      if r.status = .passed ∨ r.status = .failed then w'.store.get? n = some r
      else w'.store.rows.get? n = w.store.rows.get? n
  /-- No other row is touched, -/
  frame : ∀ n, (∀ root ∈ roots, ¬w.catalog.Within n root ∧ ¬w.catalog.Over n root) →
    w'.store.rows.get? n = w.store.rows.get? n
  /-- and nothing else is but the journal. -/
  others : w' = { w with
    store := { w.store with rows := w'.store.rows }, journal := w'.journal }

section Effect

variable {report : List Entry} {roots ids : List String} {results : Results} {rs : List Result}
  {run : Option Int} {w : Workspace} {journal : Journal} {n : String} {r : Result}

variable
  (hroots : ∀ id, id ∈ roots ↔ ∃ file f x, w.catalog.IsRoot ids file f x ∧ x.id = id)
  (hresults : ∀ n r, results.get? n = some r ↔ Picks w.catalog report ids n r)
  (hrs : ∀ r, r ∈ rs ↔ Says w.catalog report ids r.id r)

include hroots in
theorem Picks.within (h : Picks w.catalog report ids n r) :
    ∃ root ∈ roots, w.catalog.Within n root := by
  obtain ⟨file, f, x, hroot, y, hy, hid, -⟩ := h
  exact ⟨x.id, (hroots _).2 ⟨file, f, x, hroot, rfl⟩,
    (hroot.holds.within_iff hroot.refers).2 ⟨y, hy, hid⟩⟩

include hroots in
theorem Rolls.above (h : Rolls w.catalog report ids n r) :
    ∃ root ∈ roots, w.catalog.Over n root := by
  obtain ⟨file, f, x, hroot, y, hy, hid, -⟩ := h
  exact ⟨x.id, (hroots _).2 ⟨file, f, x, hroot, rfl⟩,
    (hroot.holds.over_iff hroot.refers).2 ⟨y, hy, hid⟩⟩

include hroots in
/-- There is a result for every node in the subtree of a root. -/
theorem exists_picks {root : String} (hmem : root ∈ roots) (h : w.catalog.Within n root) :
    ∃ r, Picks w.catalog report ids n r := by
  obtain ⟨file, f, x, hroot, rfl⟩ := (hroots root).1 hmem
  obtain ⟨y, hy, hid⟩ := (hroot.holds.within_iff hroot.refers).1 h
  obtain ⟨r, hr, -⟩ := exists_stated report (hroot.refers.below hroot.holds.ordered hy)
  exact ⟨r, file, f, x, hroot, y, hy, hid, hr⟩

include hroots in
/-- The result for a node is its verdict, unless the node is a feature and a root. -/
theorem Picks.verdict (h : Picks w.catalog report ids n r)
    (hnot : ¬(n ∈ roots ∧ NodeRef.read n = .ok (.feature n))) :
    ∃ ref f, NodeRef.read n = .ok ref ∧ w.catalog.get? ref.file = some f ∧
      (verdicts report ref.file f).get? n = some r := by
  obtain ⟨file, f, x, hroot, y, hy, rfl, hstated⟩ := h
  have hyref := hroot.refers.below hroot.holds.ordered hy
  have hfile := hyref.file_eq
  have hfeature : y ≠ .feature y.file := by
    intro hyf
    rw [hfile] at hyf
    subst hyf
    have hx := eq_of_feature_mem_below hroot.holds hroot.refers hy
    refine hnot ⟨(hroots _).2 ⟨file, f, x, hroot, by rw [hx]⟩, ?_⟩
    exact hroot.holds.read_id hyref
  refine ⟨y, f, hroot.holds.read_id hyref, hfile ▸ hroot.holds.get, ?_⟩
  rw [← hstated, stated_eq_verdict hfeature]

include hrs in
/-- Above a root the verdict is found if it is definite, and nothing is written if it is not. -/
theorem recorded_of_above {file : String} {f : Feature} {x y : NodeRef}
    (hroot : w.catalog.IsRoot ids file f x) (hy : y ∈ f.above x)
    (hr : (verdicts report file f).get? y.id = some r) :
    if r.status = .passed ∨ r.status = .failed then (recorded w run rs).get? y.id = some r
    else (recorded w run rs).rows.get? y.id = w.store.rows.get? y.id := by
  have hnot : ∀ t, ¬Picks w.catalog report ids y.id t := fun t => Picks.not_above hroot hy
  split
  · rename_i hset
    have hroll : Rolls w.catalog report ids y.id r :=
      ⟨file, f, x, hroot, y, hy, rfl, hr, by simpa [isSettled] using hset⟩
    refine get?_recorded_of_says hrs (.inr hroll) ?_
    rcases hset with h | h <;> rw [h] <;> decide
  · rename_i hset
    refine rows_recorded_of_unmatched hrs fun t ht => ?_
    rcases ht with h | ⟨file', f', x', hroot', y', hy', he, ht', hset'⟩
    · exact absurd h (hnot t)
    · obtain ⟨rfl, rfl, rfl⟩ := hroot.holds.unique hroot'.holds
        (hroot.refers.above hroot.holds.ordered hy) (hroot'.refers.above hroot'.holds.ordered hy')
        he.symm
      rw [hr] at ht'
      cases ht'
      exact absurd (by simpa [isSettled] using hset') hset

include hroots hresults hrs in
/-- Recording what applying a report to the roots says has the effect. -/
theorem effect_of_recorded :
    Effect report roots results w { w with store := recorded w run rs, journal := journal } where
  keys n := by
    rw [OrderedMap.mem_keys_iff, Option.isSome_iff_exists]
    simp only [hresults]
    constructor
    · rintro ⟨r, hpick⟩
      exact hpick.within hroots
    · rintro ⟨root, hmem, hwithin⟩
      exact exists_picks hroots hmem hwithin
  features n hn hread := by
    obtain ⟨file, f, x, hroot, rfl⟩ := (hroots n).1 hn
    have hx : x = .feature x.id :=
      Except.ok.inj ((hroot.holds.read_id hroot.refers).symm.trans hread)
    cases x with
    | feature name =>
      obtain rfl : name = file := hroot.refers.file_eq
      have hpick : Picks w.catalog report ids name (featureResult report name f) :=
        ⟨name, f, _, hroot, _, self_mem_below hroot.holds.ordered hroot.refers, rfl, rfl⟩
      exact ⟨_, ((hresults _ _).2 hpick).trans (congrArg some featureResult_eq)⟩
    | _ => cases hx
  nodes n hn hnot := by
    obtain ⟨r, hr⟩ := Option.isSome_iff_exists.1 (OrderedMap.mem_keys_iff.1 hn)
    obtain ⟨ref, f, hread, hget, hverdict⟩ := ((hresults n r).1 hr).verdict hroots hnot
    exact ⟨ref, f, hread, hget, hr.trans hverdict.symm⟩
  kept n r hr hstatus := get?_recorded_of_says hrs (.inl ((hresults n r).1 hr)) hstatus
  unmatched n r hr hstatus := rows_recorded_of_unmatched hrs fun t ht => by
    rw [ht.unique (.inl ((hresults n r).1 hr)), hstatus]
  above root hmem n hover := by
    obtain ⟨file, f, x, hroot, rfl⟩ := (hroots root).1 hmem
    obtain ⟨y, hy, rfl⟩ := (hroot.holds.over_iff hroot.refers).1 hover
    have hyref := hroot.refers.above hroot.holds.ordered hy
    obtain ⟨r, hr, -⟩ := exists_verdict report hyref
    have hfile := hyref.file_eq
    refine ⟨y, f, r, hroot.holds.read_id hyref, hfile ▸ hroot.holds.get, hfile ▸ hr, ?_⟩
    exact recorded_of_above hrs hroot hy hr
  frame n hout := by
    refine rows_recorded fun t ht hte => ?_
    rcases (hrs t).1 ht with hpick | hroll
    · obtain ⟨root, hmem, hwithin⟩ := hpick.within hroots
      exact absurd (hte ▸ hwithin) (hout root hmem).1
    · obtain ⟨root, hmem, hover⟩ := hroll.above hroots
      exact absurd (hte ▸ hover) (hout root hmem).2
  others := rfl

end Effect

/-- An application that is not cancelled goes through all roots. -/
theorem applyReport_of_select {keep : List Result → Action Unit} {report : List Entry}
    {ids : Option (List String)} {w w' : Workspace} {roots : List String}
    {found : Results × Summary} (hselect : w.catalog.select ids = .ok roots)
    (hall : applyAllWith keep report .empty .empty roots w = (.ok found, w')) :
    applyReportWith keep report ids none w = (.ok found, w') := by
  have hall' : applyAllWith keep report .empty .empty
      (roots.take ((none : Option Nat).getD roots.length)) w = (.ok found, w') := by
    rwa [Option.getD_none, List.take_length]
  rw [applyReportWith_eq hselect, Action.bind_ok hall', Option.getD_none,
    if_neg (by simp)]
  rfl

/-- Applying a report to a selection of nodes of a catalog of parsed features always succeeds, and
has exactly the effect that is stated node by node. -/
theorem applyReport_effect {report : List Entry} {ids : Option (List String)} {run : Option Int}
    {w : Workspace} (hc : w.catalog.Parsed) (hids : ∀ id ∈ ids.getD [], w.catalog.IsNode id)
    (hrun : run.all Store.fits = true) :
    ∃ roots results counts w', w.catalog.select ids = .ok roots ∧
      applyReport report ids none run w = (.ok (results, counts), w') ∧
      Effect report roots results w w' := by
  obtain ⟨roots, hselect, hroots⟩ := select_eq hc hids
  obtain ⟨applied, happlied, hpicks, hwrites⟩ :=
    exists_applied w.root report hroots
  have hread : ∀ a ∈ applied, ∀ r ∈ a.writes, ∃ ref, NodeRef.read r.id = .ok ref := by
    intro a ha r hr
    have hmem := (hwrites r).1 (List.mem_flatMap.2 ⟨a, ha, hr⟩)
    rcases hmem with ⟨file, f, x, hroot, y, hy, hid, -⟩ | ⟨file, f, x, hroot, y, hy, hid, -⟩
    · exact ⟨y, hid ▸ hroot.holds.read_id (hroot.refers.below hroot.holds.ordered hy)⟩
    · exact ⟨y, hid ▸ hroot.holds.read_id (hroot.refers.above hroot.holds.ordered hy)⟩
  obtain ⟨counts, journal, hall⟩ := applyAll_eq hrun happlied hread .empty .empty
  refine ⟨roots, _, counts, _, hselect, applyReport_of_select hselect hall, ?_⟩
  refine effect_of_recorded hroots (fun n r => ?_) hwrites
  rw [← hpicks]
  constructor
  · exact OrderedMap.mem_of_get?_ofList
  · intro hmem
    refine OrderedMap.get?_insertAll_of_mem (fun t ht => ?_) hmem
    exact ((hpicks n t).1 ht).unique ((hpicks n r).1 hmem)

/-- A catalog of one feature, of which the only scenario is selected. -/
theorem applyReport_effect_of_scenario :
    ∃ w : Workspace, w.catalog.Parsed ∧ w.catalog.IsNode "a.feature:scenario:2" ∧
      ∃ roots results counts w',
        w.catalog.select (some ["a.feature:scenario:2"]) = .ok roots ∧
        applyReport [⟨"a.feature", []⟩] (some ["a.feature:scenario:2"]) none (some 1) w =
          (.ok (results, counts), w') ∧
        Effect [⟨"a.feature", []⟩] roots results w w' := by
  have hfits : Fits (linesOf "Feature: A\nScenario: B").length := ⟨by decide⟩
  have hc : (Catalog.empty.readFile "a.feature" "Feature: A\nScenario: B").Parsed :=
    parsed_empty.readFile ⟨by decide, by decide, by decide⟩ hfits
  have hread : (Catalog.empty.readFile "a.feature" "Feature: A\nScenario: B").get? "a.feature" =
      some ⟨"A", 1, "a.feature", [.scenario ⟨"B", 2, false, []⟩]⟩ := by decide
  have hnode : (Catalog.empty.readFile "a.feature" "Feature: A\nScenario: B").IsNode
      "a.feature:scenario:2" :=
    (isNode_iff hc).2 ⟨_, _, .scenario "a.feature" 2, hc.holds hread,
      .scenario (s := ⟨"B", 2, false, []⟩) (List.mem_singleton.2 rfl), by decide⟩
  refine ⟨{ Workspace.start ⟨default, .empty, .new, "/", "", 0, 0, [], [], .usual⟩ with
    catalog := Catalog.empty.readFile "a.feature" "Feature: A\nScenario: B" }, hc, hnode, ?_⟩
  exact applyReport_effect hc (fun id hid => List.mem_singleton.1 hid ▸ hnode) (by decide)

end Run
end FeatureRun
