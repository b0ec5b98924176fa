import FeatureRun.Proofs.Outcome.Place
import Mathlib.Logic.ExistsUnique

/-!
# Every outcome in its group

Scenarios and rows may share a line, and may even be equal. Still an outcome on a line where one of
them stands is matched exactly once, with the first in document order of those that suit it best,
and rolling up puts every match into exactly one group: that of a scenario itself, or that of one of
its rows.

* `Place.Before`, `pairwise_sites`: the order of the document.
* `BelongsTo`: the scenario or row that an outcome belongs to.
* `groups`, `exists_unique_group`, `groups_perm`: the groups of all scenarios share out the matches.
* `Conserved`, `conserved_matched`: what matching and grouping keep of a list of outcomes.
-/
set_option autoImplicit false

namespace FeatureRun

/-! ## Document order -/

/-- Scenarios come one after another, each before its own rows. -/
inductive Place.Before : Place → Place → Prop where
  | scenario {i j : Nat} {r r' : Option Nat} (h : i < j) : Before ⟨i, r⟩ ⟨j, r'⟩
  | own {i j : Nat} : Before ⟨i, none⟩ ⟨i, some j⟩
  | row {i j k : Nat} (h : j < k) : Before ⟨i, some j⟩ ⟨i, some k⟩

theorem Place.before_of_lt {p q : Place} (h : p.scenario < q.scenario) : p.Before q := by
  cases p
  cases q
  exact .scenario h

theorem Place.Before.ne {p q : Place} (h : p.Before q) : p ≠ q := by
  rintro rfl
  cases h with
  | scenario h => exact Nat.lt_irrefl _ h
  | row h => exact Nat.lt_irrefl _ h

/-- A scenario or a row of a feature, with its position. -/
inductive Feature.HasSite (f : Feature) : Site → Prop where
  | scenario {i : Nat} {s : Scenario} (hs : f.scenarios[i]? = some s) :
    HasSite f ⟨⟨i, none⟩, s, none⟩
  | row {i j : Nat} {s : Scenario} {row : Row} (hs : f.scenarios[i]? = some s)
    (hrow : s.rows[j]? = some row) : HasSite f ⟨⟨i, some j⟩, s, some row⟩

variable {f : Feature} {s : Scenario} {site t : Site} {i : Nat} {o : Outcome} {os : List Outcome}
  {m : Match} {ms : List Match}

theorem mem_sites_iff : site ∈ f.sites ↔ f.HasSite site := by
  rw [mem_sites]
  constructor
  · rintro ⟨i, s, hs, hmem⟩
    rcases mem_sites_of_scenario.1 hmem with rfl | ⟨j, row, hrow, rfl⟩
    · exact .scenario hs
    · exact .row hs hrow
  · intro h
    cases h with
    | scenario hs => exact ⟨_, _, hs, mem_sites_of_scenario.2 (.inl rfl)⟩
    | row hs hrow => exact ⟨_, _, hs, mem_sites_of_scenario.2 (.inr ⟨_, _, hrow, rfl⟩)⟩

theorem pairwise_sites_of_scenario (s : Scenario) (i : Nat) :
    (s.sites i).Pairwise fun t u => t.place.Before u.place := by
  rw [Scenario.sites, List.pairwise_cons]
  refine ⟨fun t ht => ?_, List.pairwise_iff_getElem.2 fun j k hj hk hjk => ?_⟩
  · obtain ⟨j, hj, rfl⟩ := List.mem_mapIdx.1 ht
    exact .own
  · rw [List.getElem_mapIdx, List.getElem_mapIdx]
    exact .row hjk

theorem scenario_of_mem_sites (h : site ∈ s.sites i) : site.place.scenario = i := by
  rcases mem_sites_of_scenario.1 h with rfl | ⟨j, row, -, rfl⟩ <;> rfl

/-- Scenarios and rows are listed in document order. -/
theorem pairwise_sites (f : Feature) :
    f.sites.Pairwise fun t u => t.place.Before u.place := by
  rw [Feature.sites, List.pairwise_flatten]
  constructor
  · intro ts hts
    obtain ⟨i, hi, rfl⟩ := List.mem_mapIdx.1 hts
    exact pairwise_sites_of_scenario _ i
  · refine List.pairwise_iff_getElem.2 fun i j hi hj hij t ht u hu => Place.before_of_lt ?_
    rw [List.getElem_mapIdx] at ht hu
    rwa [scenario_of_mem_sites ht, scenario_of_mem_sites hu]

theorem nodup_places (f : Feature) : (f.sites.map Site.place).Nodup :=
  List.pairwise_map.2 ((pairwise_sites f).imp Place.Before.ne)

/-! ## Where an outcome belongs -/

/-- The first, in document order, of the scenarios and rows with a property. -/
structure IsFirst (f : Feature) (suits : Site → Prop) (site : Site) : Prop where
  hasSite : f.HasSite site
  holds : suits site
  first : ∀ t, f.HasSite t → suits t → t = site ∨ site.place.Before t.place

/-- An outcome belongs to the first scenario or row on its line whose scenario has its name; if there
is none, to the first one on its line. -/
inductive BelongsTo (f : Feature) (o : Outcome) (site : Site) : Prop where
  | named (h : IsFirst f (fun t => o.line = some t.line ∧ t.scenario.name = o.name) site)
  | unnamed (hnone : ∀ t, f.HasSite t → o.line = some t.line → t.scenario.name ≠ o.name)
    (h : IsFirst f (fun t => o.line = some t.line) site)

theorem isFirst_of_find? {p : Site → Bool} (h : f.sites.find? p = some site) :
    IsFirst f (fun t => p t = true) site := by
  refine ⟨mem_sites_iff.1 (List.mem_of_find?_eq_some h), List.find?_some h, fun t ht hp => ?_⟩
  obtain ⟨-, before, after, hsites, hbefore⟩ := List.find?_eq_some_iff_append.1 h
  have hmem := mem_sites_iff.2 ht
  have horder := pairwise_sites f
  rw [hsites] at hmem horder
  rcases List.mem_append.1 hmem with hmem | hmem
  · exact absurd hp (by simpa using hbefore t hmem)
  · rcases List.mem_cons.1 hmem with rfl | hmem
    · exact .inl rfl
    · exact .inr ((List.pairwise_cons.1 (List.pairwise_append.1 horder).2.1).1 t hmem)

namespace Outcome

theorem belongsTo_of_site? (h : o.site? f.byLine = some site) : BelongsTo f o site := by
  rw [site?_byLine, candidates, List.find?_filter, List.head?_filter, Option.or_eq_some_iff] at h
  rcases h with h | ⟨hnone, h⟩
  · exact .named (by simpa using isFirst_of_find? h)
  · refine .unnamed (fun t ht hline => ?_) (by simpa using isFirst_of_find? h)
    have hname := List.find?_eq_none.1 hnone t (mem_sites_iff.2 ht)
    simpa [hline] using hname

/-- The outcomes that are matched, in order: each one on a line where something stands, once. -/
theorem outcomes_matched (f : Feature) (os : List Outcome) :
    (matched f os).map Match.outcome = os.filter fun o => ∃ line ∈ o.line, f.TestLine line := by
  induction os with
  | nil => rfl
  | cons o os ih =>
    have htest := isSome_site?_iff (f := f) (o := o)
    rw [matched] at ih ⊢
    rw [List.filterMap_cons, List.filter_cons]
    cases hsite : o.site? f.byLine with
    | none =>
      rw [hsite] at htest
      rw [if_neg (by simpa using htest)]
      exact ih
    | some site =>
      rw [hsite] at htest
      rw [if_pos (by simpa using htest), Option.map_some, List.map_cons, ih]

end Outcome

/-! ## Groups -/

namespace RollUp

open Outcome

/-- The groups of the scenario at a position: the matches with it, then those with each of its
rows. -/
def groups (ms : List Match) (i : Nat) (s : Scenario) : List (List Match) :=
  (s.sites i).map fun t => matchesAt ms t.place

/-- What a scenario counts are the outcomes in its groups. -/
theorem scenarioOutcomes_eq (ms : List Match) (i : Nat) (s : Scenario) :
    scenarioOutcomes ms i s = (groups ms i s).flatten.map Match.outcome := by
  have hrows : (s.rows.mapIdx fun j _ => outcomesAt ms ⟨i, some j⟩) =
      ((s.rows.mapIdx fun j row => (⟨⟨i, some j⟩, s, some row⟩ : Site)).map
        fun t => matchesAt ms t.place).map (List.map Match.outcome) :=
    List.ext_getElem (by simp) fun j _ _ => by simp [outcomesAt]
  rw [scenarioOutcomes, hrows, groups, Scenario.sites, List.map_cons, List.flatten_cons,
    List.map_append, ← List.map_flatten]
  rfl

theorem mem_matchesAt {p : Place} : m ∈ matchesAt ms p ↔ m ∈ ms ∧ m.site.place = p := by
  simp [matchesAt]

theorem hasSite_of_matched (hm : m ∈ matched f os) : f.HasSite m.site :=
  mem_sites_iff.1 (mem_of_site? (mem_matched.1 hm).2).1

/-- A match is in the group of the scenario or row that it is a match with, and in no other. -/
theorem exists_unique_group (hm : m ∈ matched f os) :
    ∃! t, f.HasSite t ∧ m ∈ matchesAt (matched f os) t.place := by
  have hsite := hasSite_of_matched hm
  refine ⟨m.site, ⟨hsite, mem_matchesAt.2 ⟨hm, rfl⟩⟩, ?_⟩
  rintro t ⟨ht, hgroup⟩
  exact eq_of_place_eq (mem_sites_iff.2 ht) (mem_sites_iff.2 hsite) (mem_matchesAt.1 hgroup).2.symm

theorem flatten_groups (ms : List Match) (f : Feature) :
    (f.scenarios.mapIdx (groups ms)).flatten.flatten =
      (f.sites.map Site.place).flatMap (matchesAt ms) := by
  have hgroups : f.scenarios.mapIdx (groups ms) =
      (f.scenarios.mapIdx fun i s => s.sites i).map (List.map fun t => matchesAt ms t.place) :=
    List.ext_getElem (by simp) fun j _ _ => by simp [groups]
  rw [hgroups, ← List.map_flatten, ← Feature.sites, List.flatMap_map, List.flatMap_def]

/-- The groups of all scenarios share out the matches. -/
theorem groups_perm (f : Feature) (os : List Outcome) :
    (f.scenarios.mapIdx (groups (matched f os))).flatten.flatten.Perm (matched f os) := by
  have hall : (matched f os).filter (fun m => m.site.place ∈ f.sites.map Site.place) =
      matched f os := by
    refine List.filter_eq_self.2 fun m hm => decide_eq_true ?_
    exact List.mem_map_of_mem (mem_sites_iff.2 (hasSite_of_matched hm))
  have hshared := flatMap_filter_perm (fun m : Match => m.site.place) (matched f os) (nodup_places f)
  rw [hall] at hshared
  rw [flatten_groups]
  exact hshared

theorem nodeResults_append (file : String) (ms : List Match) (index : Nat)
    (ss ts : List Scenario) : nodeResults file ms index (ss ++ ts) =
      nodeResults file ms index ss ++ nodeResults file ms (index + ss.length) ts := by
  rw [nodeResults, List.mapIdx_append, List.flatten_append]
  simp only [nodeResults, Nat.add_assoc, Nat.add_comm ss.length]

/-- Scenarios are rolled up by the groups at their own positions, wherever in the tree they are. -/
theorem nodeResults_sublist (file : String) (ms : List Match) (index : Nat) (cs : List Child) :
    (nodeResults file ms index (cs.flatMap Child.scenarios)).Sublist
      (childResults file ms index cs) := by
  induction cs generalizing index with
  | nil => exact List.Sublist.refl _
  | cons c cs ih =>
    rw [List.flatMap_cons, nodeResults_append]
    cases c with
    | scenario s => exact (ih _).append_left _
    | rule r => exact ((ih _).cons _).append_left _

end RollUp

/-- What matching a list of outcomes with the tree of a feature, and rolling the matches up, keeps of
the outcomes. -/
structure Conserved (f : Feature) (os : List Outcome) (ms : List Match) : Prop where
  /-- In order, one match for each outcome on a line where something stands. -/
  outcomes : ms.map Match.outcome = os.filter fun o => ∃ line ∈ o.line, f.TestLine line
  site : ∀ m ∈ ms, BelongsTo f m.outcome m.site
  /-- Each match is in the group of one scenario or row. -/
  alone : ∀ m ∈ ms, ∃! t, f.HasSite t ∧ m ∈ RollUp.matchesAt ms t.place
  /-- The groups of all scenarios hold each match as often as it occurs. -/
  shared : (f.scenarios.mapIdx (RollUp.groups ms)).flatten.flatten.Perm ms
  /-- A scenario is rolled up from its groups. -/
  counted : ∀ i s, RollUp.scenarioOutcomes ms i s = (RollUp.groups ms i s).flatten.map Match.outcome
  rolled : ∀ file, (RollUp.nodeResults file ms 0 f.scenarios).Sublist
    (RollUp.childResults file ms 0 f.children)

/-- Matching and rolling up lose no outcome on a line of the tree and double none, however many
scenarios and rows share a line. -/
theorem conserved_matched (f : Feature) (os : List Outcome) :
    Conserved f os (Outcome.matched f os) where
  outcomes := Outcome.outcomes_matched f os
  site _ hm := Outcome.belongsTo_of_site? (Outcome.mem_matched.1 hm).2
  alone _ hm := RollUp.exists_unique_group hm
  shared := RollUp.groups_perm f os
  counted := RollUp.scenarioOutcomes_eq _
  rolled file := RollUp.nodeResults_sublist file _ 0 f.children

/-- Of two equal scenarios the first is matched, a scenario before its row, and a name that stands
nowhere counts for the first of them all. -/
example :
    let twin : Scenario := ⟨"a", 3, false, []⟩
    let f : Feature :=
      ⟨"F", 1, "", [.scenario twin, .rule ⟨"R", 2, [twin, ⟨"b", 3, true, [⟨3, "|x|"⟩]⟩]⟩]⟩
    let os : List Outcome :=
      ["b", "c", "a"].map (⟨·, some 3, true, none⟩) ++ [⟨"a", some 4, true, none⟩]
    (Outcome.matched f os).map (·.site.place) = [⟨2, none⟩, ⟨0, none⟩, ⟨0, none⟩] := by
  decide

end FeatureRun
