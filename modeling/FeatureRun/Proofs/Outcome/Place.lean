import FeatureRun.Outcome.RollUp

/-!
# Where outcomes end up

Every outcome on the line of a scenario or row is matched with one of those that stand there, and
whatever is matched is counted by exactly one scenario.

* `TestLine`: the lines of the scenarios and rows of a feature.
* `site?_byLine`, `isSome_site?_iff`: what an outcome is matched with, and whether it is.
* `mem_matched`, `exists_match_iff`: which outcomes are matched.
* `exists_scenario_of_match`: the scenario that counts a matched outcome.
-/
set_option autoImplicit false

namespace FeatureRun

/-- The lines on which a scenario or a row of a scenario stands. -/
def Feature.TestLine (f : Feature) (line : Int) : Prop :=
  ∃ s ∈ f.scenarios, s.line = line ∨ ∃ row ∈ s.rows, row.line = line

instance (f : Feature) : DecidablePred f.TestLine := fun line =>
  inferInstanceAs (Decidable (∃ s ∈ f.scenarios, s.line = line ∨ ∃ row ∈ s.rows, row.line = line))

theorem mem_flatten_mapIdx {α β : Type} {g : Nat → α → List β} {xs : List α} {b : β} :
    b ∈ (xs.mapIdx g).flatten ↔ ∃ i a, xs[i]? = some a ∧ b ∈ g i a := by
  simp only [List.mem_flatten, List.mem_mapIdx]
  constructor
  · rintro ⟨_, ⟨i, hi, rfl⟩, hb⟩
    exact ⟨i, xs[i], by simp, hb⟩
  · rintro ⟨i, a, ha, hb⟩
    obtain ⟨hi, rfl⟩ := List.getElem?_eq_some_iff.1 ha
    exact ⟨_, ⟨i, hi, rfl⟩, hb⟩

/-- Taken key by key, from different keys, everything with one of the keys is taken once. -/
theorem flatMap_filter_perm {α κ : Type} [DecidableEq κ] {keys : List κ} (key : α → κ) (xs : List α)
    (h : keys.Nodup) :
    (keys.flatMap fun k => xs.filter fun x => key x = k).Perm
      (xs.filter fun x => key x ∈ keys) := by
  induction keys with
  | nil => simp
  | cons k keys ih =>
    obtain ⟨hk, hkeys⟩ := List.nodup_cons.1 h
    -- what is taken splits into what has the first key and what has one of the others
    let here (x : α) : Bool := key x = k
    let taken := xs.filter fun x => key x ∈ k :: keys
    have hhere : taken.filter here = xs.filter fun x => key x = k := by
      refine List.filter_filter.trans (List.filter_congr fun x _ => ?_)
      simpa [here] using Or.inl
    have hrest : taken.filter (fun x => !here x) = xs.filter fun x => key x ∈ keys := by
      refine List.filter_filter.trans (List.filter_congr fun x _ => ?_)
      by_cases hx : key x = k
      · simp [here, hx, hk]
      · simp [here, hx]
    have hsplit : (taken.filter here ++ taken.filter fun x => !here x).Perm taken :=
      List.filter_append_perm here taken
    rw [hhere, hrest] at hsplit
    exact ((ih hkeys).append_left _).trans hsplit

variable {f : Feature} {s : Scenario} {site site' : Site} {i : Nat}

theorem mem_sites_of_scenario : site ∈ s.sites i ↔ site = ⟨⟨i, none⟩, s, none⟩ ∨
    ∃ j row, s.rows[j]? = some row ∧ site = ⟨⟨i, some j⟩, s, some row⟩ := by
  simp only [Scenario.sites, List.mem_cons, List.mem_mapIdx, List.getElem?_eq_some_iff]
  grind

theorem mem_sites :
    site ∈ f.sites ↔ ∃ i, ∃ s : Scenario, f.scenarios[i]? = some s ∧ site ∈ s.sites i :=
  mem_flatten_mapIdx

/-- A scenario or row is told by its place. -/
theorem eq_of_place_eq (h : site ∈ f.sites) (h' : site' ∈ f.sites)
    (hplace : site.place = site'.place) : site = site' := by
  obtain ⟨i, s, hs, hmem⟩ := mem_sites.1 h
  obtain ⟨i', s', hs', hmem'⟩ := mem_sites.1 h'
  rcases mem_sites_of_scenario.1 hmem with rfl | ⟨j, row, hrow, rfl⟩ <;>
    rcases mem_sites_of_scenario.1 hmem' with rfl | ⟨j', row', hrow', rfl⟩ <;>
    cases hplace <;> cases hs.symm.trans hs'
  · rfl
  · cases hrow.symm.trans hrow'
    rfl

/-- A scenario or row stands on each test line, and on no other line. -/
theorem exists_site_iff {line : Int} : (∃ site ∈ f.sites, site.line = line) ↔ f.TestLine line := by
  constructor
  · rintro ⟨site, hsite, rfl⟩
    obtain ⟨i, s, hs, hsite⟩ := mem_sites.1 hsite
    refine ⟨s, List.mem_of_getElem? hs, ?_⟩
    rcases mem_sites_of_scenario.1 hsite with rfl | ⟨j, row, hrow, rfl⟩
    · exact .inl rfl
    · exact .inr ⟨row, List.mem_of_getElem? hrow, rfl⟩
  · rintro ⟨s, hs, hline⟩
    obtain ⟨i, hi⟩ := List.mem_iff_getElem?.1 hs
    have hsites : ∀ {site}, site ∈ s.sites i → site ∈ f.sites := fun h => mem_sites.2 ⟨i, s, hi, h⟩
    rcases hline with rfl | ⟨row, hrow, rfl⟩
    · exact ⟨_, hsites (mem_sites_of_scenario.2 (.inl rfl)), rfl⟩
    · obtain ⟨j, hj⟩ := List.mem_iff_getElem?.1 hrow
      exact ⟨_, hsites (mem_sites_of_scenario.2 (.inr ⟨j, row, hj, rfl⟩)), rfl⟩

namespace Outcome

variable {o : Outcome} {os : List Outcome}

/-- What stands on the line of an outcome, in document order. -/
def candidates (f : Feature) (o : Outcome) : List Site :=
  f.sites.filter fun s => o.line = some s.line

theorem mem_candidates : site ∈ candidates f o ↔ site ∈ f.sites ∧ o.line = some site.line := by
  simp [candidates]

/-- Looking up a line gives what stands there. -/
theorem site?_byLine (f : Feature) (o : Outcome) :
    o.site? f.byLine =
      ((candidates f o).find? (·.scenario.name = o.name)).or (candidates f o).head? := by
  have hhere : (o.line.bind f.byLine.get?).getD [] = candidates f o := by
    cases hline : o.line with
    | none => simp [candidates, hline]
    | some line =>
      rw [Option.bind_some, Feature.byLine, OrderedMap.get?_groupByKey, candidates]
      simp [hline, eq_comm]
  rw [site?, hhere, Option.orElse_eq_orElse, Option.orElse_eq_or]

/-- An outcome is matched with something on its line. -/
theorem mem_of_site? (h : o.site? f.byLine = some site) :
    site ∈ f.sites ∧ o.line = some site.line := by
  rw [site?_byLine, Option.or_eq_some_iff] at h
  rcases h with h | ⟨-, h⟩
  · exact mem_candidates.1 (List.mem_of_find?_eq_some h)
  · exact mem_candidates.1 (List.mem_of_head? h)

/-- It is matched if anything stands there. -/
theorem isSome_site? (hsite : site ∈ f.sites) (hline : o.line = some site.line) :
    (o.site? f.byLine).isSome = true := by
  have hhere : candidates f o ≠ [] := List.ne_nil_of_mem (mem_candidates.2 ⟨hsite, hline⟩)
  rw [site?_byLine, Option.isSome_or, Bool.or_eq_true_iff]
  exact .inr (List.isSome_head?.2 hhere)

theorem isSome_site?_iff : (o.site? f.byLine).isSome = true ↔ ∃ line ∈ o.line, f.TestLine line := by
  constructor
  · intro h
    obtain ⟨site, hsite⟩ := Option.isSome_iff_exists.1 h
    obtain ⟨hmem, hline⟩ := mem_of_site? hsite
    exact ⟨_, hline, exists_site_iff.1 ⟨_, hmem, rfl⟩⟩
  · rintro ⟨line, hline, htest⟩
    obtain ⟨site, hsite, rfl⟩ := exists_site_iff.2 htest
    exact isSome_site? hsite hline

theorem mem_matched {m : Match} :
    m ∈ matched f os ↔ m.outcome ∈ os ∧ m.outcome.site? f.byLine = some m.site := by
  simp only [matched, List.mem_filterMap, Option.map_eq_some_iff]
  constructor
  · rintro ⟨o, ho, site, hsite, rfl⟩
    exact ⟨ho, hsite⟩
  · rintro ⟨ho, hsite⟩
    exact ⟨_, ho, _, hsite, rfl⟩

/-- The outcomes that are matched are those on a test line. -/
theorem exists_match_iff :
    (∃ m ∈ matched f os, m.outcome = o) ↔ o ∈ os ∧ ∃ line, o.line = some line ∧ f.TestLine line := by
  have htest := isSome_site?_iff (f := f) (o := o)
  constructor
  · rintro ⟨m, hm, rfl⟩
    obtain ⟨ho, hsite⟩ := mem_matched.1 hm
    exact ⟨ho, htest.1 (Option.isSome_of_mem hsite)⟩
  · rintro ⟨ho, hline⟩
    obtain ⟨found, hfound⟩ := Option.isSome_iff_exists.1 (htest.2 hline)
    exact ⟨⟨found, o⟩, mem_matched.2 ⟨ho, hfound⟩, rfl⟩

end Outcome

namespace RollUp

open Outcome

variable {ms : List Match} {o : Outcome} {os : List Outcome} {p : Place}

theorem mem_outcomesAt : o ∈ outcomesAt ms p ↔ ∃ m ∈ ms, m.site.place = p ∧ m.outcome = o := by
  simp [outcomesAt, matchesAt, and_assoc]

/-- The outcomes of a scenario are those at its own position and at those of its rows. -/
theorem mem_scenarioOutcomes : o ∈ scenarioOutcomes ms i s ↔
    ∃ m ∈ ms, m.outcome = o ∧ ∃ site ∈ s.sites i, m.site.place = site.place := by
  simp only [scenarioOutcomes, List.mem_append, mem_outcomesAt, mem_flatten_mapIdx]
  constructor
  · rintro (⟨m, hm, hp, ho⟩ | ⟨j, row, hrow, m, hm, hp, ho⟩)
    · exact ⟨m, hm, ho, _, mem_sites_of_scenario.2 (.inl rfl), hp⟩
    · exact ⟨m, hm, ho, _, mem_sites_of_scenario.2 (.inr ⟨j, row, hrow, rfl⟩), hp⟩
  · rintro ⟨m, hm, ho, site, hsite, hp⟩
    rcases mem_sites_of_scenario.1 hsite with rfl | ⟨j, row, hrow, rfl⟩
    · exact .inl ⟨m, hm, hp, ho⟩
    · exact .inr ⟨j, row, hrow, m, hm, hp, ho⟩

/-- A matched outcome is counted by a scenario of the feature. -/
theorem exists_scenario_of_match {m : Match} (hm : m ∈ matched f os) :
    ∃ i s, f.scenarios[i]? = some s ∧ m.outcome ∈ scenarioOutcomes (matched f os) i s := by
  obtain ⟨-, hsite⟩ := mem_matched.1 hm
  obtain ⟨i, s, hs, hmem⟩ := mem_sites.1 (mem_of_site? hsite).1
  exact ⟨i, s, hs, mem_scenarioOutcomes.2 ⟨m, hm, rfl, m.site, hmem, rfl⟩⟩

/-- All scenarios together count the outcomes on test lines. -/
theorem exists_scenarioOutcomes_iff :
    (∃ i s, f.scenarios[i]? = some s ∧ o ∈ scenarioOutcomes (matched f os) i s) ↔
      o ∈ os ∧ ∃ line, o.line = some line ∧ f.TestLine line := by
  rw [← exists_match_iff]
  constructor
  · rintro ⟨i, s, -, ho⟩
    obtain ⟨m, hm, rfl, -⟩ := mem_scenarioOutcomes.1 ho
    exact ⟨m, hm, rfl⟩
  · rintro ⟨m, hm, rfl⟩
    exact exists_scenario_of_match hm

end RollUp
end FeatureRun
