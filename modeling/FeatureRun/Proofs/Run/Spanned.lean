import FeatureRun.Proofs.Run.Effect

/-!
# Selections as sets

What applying a report comes to depends on which nodes the selection spans, not on how it lists
them, as selections that span the same nodes have the same roots. And since the report says one thing
about each node, applying it again writes what is there already.

* `Says`: what is written for a node.
* `Applies`: how a report is applied to the roots of a selection.
* `applyReport_spanned`: results, counts and store depend on the spanned nodes only, and a second
  application leaves the store as it is.
-/
set_option autoImplicit false

namespace FeatureRun

theorem Summary.add_right_comm (a b c : Summary) : a + b + c = a + c + b := by
  change Summary.add (Summary.add a b) c = Summary.add (Summary.add a c) b
  simp [add, Int.add_right_comm]

open Report (Entry)
open Feature

namespace Run

open Catalog

section Says

variable {c : Catalog} {report : List Entry} {ids ids₁ ids₂ : List String} {n : String}
  {r : Result}

/-- There is a result for each node that is spanned, and for no other. -/
theorem exists_picks_iff (hc : c.Parsed) (hids : ∀ id ∈ ids, c.IsNode id) :
    (∃ r, Picks c report ids n r) ↔ c.Spans ids n := by
  rw [spans_iff_exists_isRoot hc hids]
  constructor
  · rintro ⟨r, file, f, x, hroot, y, hy, hid, -⟩
    exact ⟨file, f, x, hroot, y, hy, hid⟩
  · rintro ⟨file, f, x, hroot, y, hy, hid⟩
    obtain ⟨r, hr, -⟩ := exists_stated report (hroot.refers.below hroot.holds.ordered hy)
    exact ⟨r, file, f, x, hroot, y, hy, hid, hr⟩

theorem picks_congr (h : ∀ file f x, c.IsRoot ids₁ file f x ↔ c.IsRoot ids₂ file f x) :
    Picks c report ids₁ n r ↔ Picks c report ids₂ n r := by
  simp only [Picks, h]

theorem says_congr (h : ∀ file f x, c.IsRoot ids₁ file f x ↔ c.IsRoot ids₂ file f x) :
    Says c report ids₁ n r ↔ Says c report ids₂ n r := by
  simp only [Says, Picks, Rolls, h]

end Says

/-- How a report is applied to the roots of a selection of nodes. -/
structure Applies (report : List Entry) (ids : Option (List String)) (run : Option Int)
    (w : Workspace) (roots : List String) (applied : List Applied) (w' : Workspace) : Prop where
  selects : w.catalog.select ids = .ok roots
  isRoot : ∀ id, id ∈ roots ↔
    ∃ file f x, w.catalog.IsRoot (w.catalog.chosen ids) file f x ∧ x.id = id
  /-- Something is said about each root. -/
  said : roots.map (applyTo w.catalog w.root report) = applied.map fun a => .ok (some a)
  picks : ∀ n r, (n, r) ∈ applied.flatMap (fun a => a.picked.entries) ↔
    Picks w.catalog report (w.catalog.chosen ids) n r
  writes : ∀ r, r ∈ applied.flatMap Applied.writes ↔
    Says w.catalog report (w.catalog.chosen ids) r.id r
  /-- The results are gathered, the counts added up, and everything that is said recorded. -/
  runs : applyReport report ids none run w =
    (.ok (.ofList (applied.flatMap fun a => a.picked.entries),
      applied.foldl (fun sum a => sum + a.counts) .empty), w')
  store : w'.store = recorded w run (applied.flatMap Applied.writes)
  catalog : w'.catalog = w.catalog

section Applies

variable {report : List Entry} {ids ids₁ ids₂ : Option (List String)} {run run₁ run₂ : Option Int}
  {w w' w₁ w₂ : Workspace} {roots roots₁ roots₂ : List String}
  {applied applied₁ applied₂ : List Applied} {n : String} {r : Result}

/-- Every selection of nodes is applied so. -/
theorem exists_applies (report : List Entry) (ids : Option (List String)) (hc : w.catalog.Parsed)
    (hids : ∀ id ∈ ids.getD [], w.catalog.IsNode id) (hrun : run.all Store.fits = true) :
    ∃ roots applied w', Applies report ids run w roots applied w' := by
  obtain ⟨roots, hselect, hroots⟩ := select_eq hc hids
  obtain ⟨applied, happlied, hpicks, hwrites⟩ := exists_applied w.root report hroots
  have hread : ∀ a ∈ applied, ∀ r ∈ a.writes, ∃ ref, NodeRef.read r.id = .ok ref := by
    intro a ha r hr
    have hsays : Says w.catalog report (w.catalog.chosen ids) r.id r :=
      (hwrites r).1 (List.mem_flatMap.2 ⟨a, ha, hr⟩)
    exact hsays.exists_read.2
  obtain ⟨journal, hall⟩ := applyAll_apply happlied
    (fun a ha => keepable_record hrun (hread a ha)) .empty .empty
  exact ⟨roots, applied, _, hselect, hroots, happlied, hpicks, hwrites,
    applyReport_of_select hselect hall, rfl, rfl⟩

theorem Applies.get?_results (h : Applies report ids run w roots applied w') :
    (OrderedMap.ofList (applied.flatMap fun a => a.picked.entries)).get? n = some r ↔
      Picks w.catalog report (w.catalog.chosen ids) n r := by
  rw [← h.picks]
  constructor
  · exact OrderedMap.mem_of_get?_ofList
  · intro hmem
    refine OrderedMap.get?_insertAll_of_mem (fun t ht => ?_) hmem
    exact ((h.picks n t).1 ht).unique ((h.picks n r).1 hmem)

theorem Applies.mem_keys_results (h : Applies report ids run w roots applied w') :
    n ∈ (OrderedMap.ofList (applied.flatMap fun a => a.picked.entries)).keys ↔
      ∃ r, Picks w.catalog report (w.catalog.chosen ids) n r := by
  rw [OrderedMap.mem_keys_iff, Option.isSome_iff_exists]
  simp only [h.get?_results]

/-- From the same roots the same is said, if in another order. -/
theorem Applies.perm (h₁ : Applies report ids₁ run₁ w roots₁ applied₁ w₁)
    (h₂ : Applies report ids₂ run₂ w' roots₂ applied₂ w₂) (hcatalog : w'.catalog = w.catalog)
    (hroot : w'.root = w.root)
    (hsame : ∀ file f x, w.catalog.IsRoot (w.catalog.chosen ids₁) file f x ↔
      w.catalog.IsRoot (w.catalog.chosen ids₂) file f x) : applied₁.Perm applied₂ := by
  have hroots : roots₁.Perm roots₂ := by
    refine (List.perm_ext_iff_of_nodup (nodup_of_select h₁.selects)
      (nodup_of_select h₂.selects)).2 fun id => ?_
    simp only [h₁.isRoot, h₂.isRoot, hcatalog, hsame]
  have hsays := h₂.said
  rw [hcatalog, hroot] at hsays
  have hsaid := hroots.map (applyTo w.catalog w.root report)
  rw [h₁.said, hsays] at hsaid
  simpa [List.filterMap_map, Function.comp_def] using hsaid.filterMap fun
    | .ok a => a
    | .error _ => none

/-- The counts add up to the same in any order. -/
theorem foldl_counts_of_perm (h : applied₁.Perm applied₂) (counts : Summary) :
    applied₁.foldl (fun sum a => sum + a.counts) counts =
      applied₂.foldl (fun sum a => sum + a.counts) counts :=
  h.foldl_eq' (fun a _ b _ sum => sum.add_right_comm a.counts b.counts) counts

/-- Of the store, what is read for a node depends on what is said about it, and if nothing definite
is said on what it held before. -/
theorem Applies.get?_store (h : Applies report ids run w roots applied w') :
    (∃ r, Says w.catalog report (w.catalog.chosen ids) n r ∧ r.status ≠ .unmatched ∧
      w'.store.get? n = some r) ∨
    (∀ r, Says w.catalog report (w.catalog.chosen ids) n r → r.status = .unmatched) ∧
      w'.store.get? n = w.store.get? n := by
  rw [h.store]
  by_cases hdefinite :
      ∃ r, Says w.catalog report (w.catalog.chosen ids) n r ∧ r.status ≠ .unmatched
  · obtain ⟨r, hsays, hstatus⟩ := hdefinite
    exact .inl ⟨r, hsays, hstatus, get?_recorded_of_says h.writes hsays hstatus⟩
  · have hunmatched : ∀ r, Says w.catalog report (w.catalog.chosen ids) n r →
        r.status = .unmatched := fun r hsays =>
      Decidable.not_not.1 fun hstatus => hdefinite ⟨r, hsays, hstatus⟩
    refine .inr ⟨hunmatched, ?_⟩
    rw [Store.get?, Store.get?, rows_recorded_of_unmatched h.writes hunmatched]

/-- Two applications that say the same to stores that read alike leave stores that read alike. -/
theorem Applies.get?_store_congr (h₁ : Applies report ids₁ run₁ w roots₁ applied₁ w₁)
    (h₂ : Applies report ids₂ run₂ w' roots₂ applied₂ w₂)
    (hsame : ∀ r, Says w.catalog report (w.catalog.chosen ids₁) n r ↔
      Says w'.catalog report (w'.catalog.chosen ids₂) n r)
    (hbefore : w.store.get? n = w'.store.get? n) : w₁.store.get? n = w₂.store.get? n := by
  rcases h₁.get?_store with ⟨r, hsays, hstatus, hget⟩ | ⟨hunmatched, hget⟩ <;>
    rcases h₂.get?_store with ⟨r', hsays', hstatus', hget'⟩ | ⟨hunmatched', hget'⟩
  · rw [hget, hget', ((hsame r).1 hsays).unique hsays']
  · exact absurd (hunmatched' r ((hsame r).1 hsays)) hstatus
  · exact absurd (hunmatched r' ((hsame r').2 hsays')) hstatus'
  · rw [hget, hget', hbefore]

/-- What has been said once is there already when it is said again. -/
theorem Applies.get?_store_again (h₁ : Applies report ids run₁ w roots₁ applied₁ w₁)
    (h₂ : Applies report ids run₂ w' roots₂ applied₂ w₂) (hcatalog : w'.catalog = w.catalog)
    (hstore : w'.store = w₁.store) : w₂.store.get? n = w₁.store.get? n := by
  rcases h₂.get?_store with ⟨r, hsays, hstatus, hget⟩ | ⟨-, hget⟩
  · rw [hcatalog] at hsays
    rcases h₁.get?_store with ⟨r', hsays', -, hget'⟩ | ⟨hunmatched, -⟩
    · rw [hget, hget', hsays.unique hsays']
    · exact absurd (hunmatched r hsays) hstatus
  · rw [hget, hstore]

end Applies

/-- Applying a report gives results for the nodes that the selection spans, and keeps the definite
ones. Two selections that span the same nodes give the same results and the same counts, and leave
stores that read alike. Applying the report once more, whenever that is, leaves the store so. -/
theorem applyReport_spanned {report : List Entry} {ids₁ ids₂ : Option (List String)}
    {run₁ run₂ again : Option Int} {w : Workspace} {now later : String} (hc : w.catalog.Parsed)
    (hids₁ : ∀ id ∈ ids₁.getD [], w.catalog.IsNode id)
    (hids₂ : ∀ id ∈ ids₂.getD [], w.catalog.IsNode id)
    (hrun₁ : run₁.all Store.fits = true) (hrun₂ : run₂.all Store.fits = true)
    (hagain : again.all Store.fits = true)
    (hsame : ∀ n, w.catalog.Spans (w.catalog.chosen ids₁) n ↔
      w.catalog.Spans (w.catalog.chosen ids₂) n) :
    ∃ results₁ results₂ counts w₁ w₂,
      applyReport report ids₁ none run₁ w = (.ok (results₁, counts), w₁) ∧
      applyReport report ids₂ none run₂ { w with stamp := now } =
        (.ok (results₂, counts), w₂) ∧
      (∀ n, n ∈ results₁.keys ↔ w.catalog.Spans (w.catalog.chosen ids₁) n) ∧
      (∀ n r, results₁.get? n = some r → r.status ≠ .unmatched → w₁.store.get? n = some r) ∧
      (∀ n, results₁.get? n = results₂.get? n) ∧
      (∀ n, w₁.store.get? n = w₂.store.get? n) ∧
      ∃ found w₃,
        applyReport report ids₁ none again { w₁ with stamp := later } = (.ok found, w₃) ∧
        ∀ n, w₃.store.get? n = w₁.store.get? n := by
  have hroot : ∀ file f x, w.catalog.IsRoot (w.catalog.chosen ids₁) file f x ↔
      w.catalog.IsRoot (w.catalog.chosen ids₂) file f x := fun file f x =>
    isRoot_congr hc (isNode_of_mem_chosen hc hids₁) (isNode_of_mem_chosen hc hids₂) hsame
  obtain ⟨roots₁, applied₁, w₁, h₁⟩ := exists_applies report ids₁ hc hids₁ hrun₁
  obtain ⟨roots₂, applied₂, w₂, h₂⟩ :=
    exists_applies (w := { w with stamp := now }) report ids₂ hc hids₂ hrun₂
  obtain ⟨roots₃, applied₃, w₃, h₃⟩ :=
    exists_applies (w := { w₁ with stamp := later }) report ids₁ (by rwa [h₁.catalog])
      (by rwa [h₁.catalog]) hagain
  have hcounts := foldl_counts_of_perm (h₁.perm h₂ rfl rfl hroot) .empty
  refine ⟨_, _, _, w₁, w₂, h₁.runs, hcounts ▸ h₂.runs, fun n => ?_, fun n r hr hstatus => ?_,
    fun n => ?_, fun n => ?_, _, w₃, h₃.runs, fun n => h₁.get?_store_again h₃ h₁.catalog rfl⟩
  · rw [h₁.mem_keys_results]
    exact exists_picks_iff hc (isNode_of_mem_chosen hc hids₁)
  · rw [h₁.store]
    exact get?_recorded_of_says h₁.writes (.inl (h₁.get?_results.1 hr)) hstatus
  · refine Option.ext fun r => ?_
    rw [h₁.get?_results, h₂.get?_results]
    exact picks_congr hroot
  · exact h₁.get?_store_congr h₂ (fun r => says_congr hroot) rfl

/-- A feature selected alone, and together with its scenario, which is listed twice. -/
theorem applyReport_spanned_of_feature : ∃ w : Workspace, w.catalog.Parsed ∧
    (∀ id ∈ ["a.feature"], w.catalog.IsNode id) ∧
    (∀ id ∈ ["a.feature:scenario:2", "a.feature", "a.feature:scenario:2"],
      w.catalog.IsNode id) ∧
    (∀ n, w.catalog.Spans ["a.feature"] n ↔
      w.catalog.Spans ["a.feature:scenario:2", "a.feature", "a.feature:scenario:2"] n) ∧
    ∃ results₁ results₂ counts w₁ w₂,
      applyReport [⟨"a.feature", []⟩] (some ["a.feature"]) none (some 1) w =
        (.ok (results₁, counts), w₁) ∧
      applyReport [⟨"a.feature", []⟩]
        (some ["a.feature:scenario:2", "a.feature", "a.feature:scenario:2"]) none (some 2)
        { w with stamp := "noon" } = (.ok (results₂, counts), w₂) ∧
      (∀ n, n ∈ results₁.keys ↔ w.catalog.Spans ["a.feature"] n) ∧
      (∀ n r, results₁.get? n = some r → r.status ≠ .unmatched → w₁.store.get? n = some r) ∧
      (∀ n, results₁.get? n = results₂.get? n) ∧
      (∀ n, w₁.store.get? n = w₂.store.get? n) ∧
      ∃ found w₃, applyReport [⟨"a.feature", []⟩] (some ["a.feature"]) none none
        { w₁ with stamp := "night" } = (.ok found, w₃) ∧
        ∀ n, w₃.store.get? n = w₁.store.get? n := by
  obtain ⟨c, f, hc, h, hs⟩ : ∃ (c : Catalog) (f : Feature), c.Parsed ∧ c.Holds "a.feature" f ∧
      f.Refers "a.feature" (.scenario "a.feature" 2) := by
    have hc : (Catalog.empty.readFile "a.feature" "Feature: A\nScenario: B").Parsed :=
      parsed_empty.readFile ⟨by decide, by decide, by decide⟩ ⟨by decide⟩
    exact ⟨_, ⟨"A", 1, "a.feature", [.scenario ⟨"B", 2, false, []⟩]⟩, hc, hc.holds (by decide),
      .scenario (s := ⟨"B", 2, false, []⟩) (List.mem_singleton.2 rfl)⟩
  have hfeature : c.IsNode "a.feature" :=
    (isNode_iff hc).2 ⟨_, _, .feature "a.feature", h, .feature, rfl⟩
  have hscenario : c.IsNode "a.feature:scenario:2" :=
    (isNode_iff hc).2 ⟨_, _, _, h, hs, by decide⟩
  have hids₁ : ∀ id ∈ ["a.feature"], c.IsNode id := by simp [hfeature]
  have hids₂ : ∀ id ∈ ["a.feature:scenario:2", "a.feature", "a.feature:scenario:2"],
      c.IsNode id := by simp [hfeature, hscenario]
  have hself : c.Within "a.feature" "a.feature" :=
    (h.within_iff (x := .feature "a.feature") .feature).2
      ⟨_, self_mem_below h.ordered .feature, rfl⟩
  have hbelow : c.Within "a.feature:scenario:2" "a.feature" :=
    (h.within_iff (x := .feature "a.feature") .feature).2 ⟨_, mem_refs.2 hs, by decide⟩
  have hsame := spans_congr hc hids₁ hids₂ (by simp [Spans, hself]) (by simp [Spans, hself, hbelow])
  refine ⟨{ Workspace.start ⟨default, .empty, .new, "/", "", 0, 0, [], [], .usual⟩ with catalog := c },
    hc, hids₁, hids₂, hsame, ?_⟩
  exact applyReport_spanned hc hids₁ hids₂ (by decide) (by decide) (by decide) hsame

end Run
end FeatureRun
