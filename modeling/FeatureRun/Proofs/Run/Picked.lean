import FeatureRun.Proofs.Catalog.Selection
import FeatureRun.Proofs.Outcome.RollUp
import FeatureRun.Run.Apply

/-!
# What applying a report to a node says

A node of the catalog is applied by the roll-up of its file: each node of its subtree gets the
result that the roll-up has for it, save a feature, which is judged by the whole entry of its file.

* `verdicts`: the roll-up of a feature by a report.
* `applyTo_eq_some_iff`: when a report says something about an id, and what.
* `stated`: the result of a node in a subtree that is applied.
* `applyTo_id`, `get?_pickedBy`, `mem_rolled`: what applying gives.
-/
set_option autoImplicit false

namespace FeatureRun.Run

open Report (Entry)
open Feature Catalog

/-- What a report says about every node of a feature. -/
def verdicts (report : List Entry) (file : String) (f : Feature) : Results :=
  RollUp.ofOutcomes file f (outcomesFor report file)

/-- What is said about a node in the subtree of a node that the report is applied to. -/
def stated (report : List Entry) (f : Feature) (x : NodeRef) : Option Result :=
  match x with
  | .feature file => some (featureResult report file f)
  | _ => (verdicts report x.file f).get? x.id

variable {c : Catalog} {root : Path} {report : List Entry} {file id : String} {f : Feature}
  {x y : NodeRef} {r : Result}

/-- What a report says about a node, by the ids below it and above it. -/
def appliedBy (root : Path) (report : List Entry) (x : NodeRef) (f : Feature)
    (below above : List String) : Applied where
  picked := pickedBy report x f (verdicts report x.file f) below
  rolled := (above.filterMap (verdicts report x.file f).get?).filter isSettled
  counts := f.summarize x.file (verdicts report x.file f) (some below)
  notes := applyNotes report root x f

/-- A report says something about an id that can be read, of a file in the catalog, if what lies
below and above it can be listed. -/
theorem applyTo_eq_some_iff {a : Applied} : applyTo c root report id = .ok (some a) ↔
    ∃ x f below above, NodeRef.read id = .ok x ∧ c.get? x.file = some f ∧
      c.descendants id = .ok below ∧ c.ancestors id = .ok above ∧
      appliedBy root report x f below above = a := by
  rw [applyTo]
  cases NodeRef.read id with
  | error e => simp
  | ok x =>
    cases hget : c.get? x.file with
    | none => simp [hget]
    | some f =>
      cases c.descendants id with
      | error e => simp [hget]
      | ok below =>
        cases c.ancestors id with
        | error e => simp [hget]
        | ok above => simp [hget, appliedBy, verdicts]

theorem mem_keys_verdicts : id ∈ (verdicts report file f).keys ↔ ∃ x, f.Refers file x ∧ x.id = id :=
  RollUp.mem_keys_results

/-- Every node has a verdict, under its own id. -/
theorem exists_verdict (report : List Entry) (hx : f.Refers file x) :
    ∃ r, (verdicts report file f).get? x.id = some r ∧ r.id = x.id := by
  have hkey : x.id ∈ (verdicts report file f).keys := mem_keys_verdicts.2 ⟨x, hx, rfl⟩
  obtain ⟨r, hr⟩ := Option.isSome_iff_exists.1 (OrderedMap.mem_keys_iff.1 hkey)
  exact ⟨r, hr, RollUp.id_of_get?_results hr⟩

/-- A feature that is applied as a whole passed or failed with the whole entry of its file. -/
theorem featureResult_eq : featureResult report file f =
    ⟨file, if Outcome.fileFailed (some report) file then .failed else .passed,
      (featureResult report file f).failures⟩ := by
  unfold featureResult
  split <;> rfl

theorem exists_stated (report : List Entry) (hx : f.Refers file x) :
    ∃ r, stated report f x = some r ∧ r.id = x.id := by
  cases hx with
  | feature => exact ⟨_, rfl, by rw [featureResult_eq]; rfl⟩
  | rule hr => exact exists_verdict report (.rule hr)
  | scenario hs => exact exists_verdict report (.scenario hs)
  | row hs hrow => exact exists_verdict report (.row hs hrow)

/-- Of every node but a feature the verdict is stated. -/
theorem stated_eq_verdict (hx : x ≠ .feature x.file) :
    stated report f x = (verdicts report x.file f).get? x.id := by
  cases x with
  | feature => exact absurd rfl hx
  | _ => rfl

/-! ## Picking results -/

theorem get?_pick (results : Results) (ids : List String) :
    (pick results ids).get? id = if id ∈ ids then results.get? id else none := by
  have hentry : ∀ {a : String} {v : Result}, (a, v) ∈ ids.filterMap (fun i =>
      (results.get? i).map fun r => (i, r)) ↔ a ∈ ids ∧ results.get? a = some v := by
    intro a v
    simp only [List.mem_filterMap, Option.map_eq_some_iff, Prod.mk.injEq]
    constructor
    · rintro ⟨i, hi, r, hr, rfl, rfl⟩
      exact ⟨hi, hr⟩
    · rintro ⟨hi, hr⟩
      exact ⟨a, hi, v, hr, rfl, rfl⟩
  split
  · rename_i hid
    cases hget : results.get? id with
    | none =>
      have hout : ∀ v, (pick results ids).get? id ≠ some v := fun v hv => by
        have := hentry.1 (OrderedMap.mem_of_get?_ofList hv)
        rw [hget] at this
        cases this.2
      exact Option.eq_none_iff_forall_ne_some.2 hout
    | some v =>
      refine OrderedMap.get?_insertAll_of_mem (fun w hw => ?_) (hentry.2 ⟨hid, hget⟩)
      have := (hentry.1 hw).2
      rw [hget] at this
      exact (Option.some.inj this).symm
  · rename_i hid
    exact Option.eq_none_iff_forall_ne_some.2 fun v hv =>
      hid (hentry.1 (OrderedMap.mem_of_get?_ofList hv)).1

/-- What is picked is the result of a whole feature or one of the results given. -/
theorem pickedBy_cases {ref : NodeRef} {results : Results} {below : List String}
    (h : (pickedBy report ref f results below).get? id = some r) :
    r = featureResult report ref.file f ∨ results.get? id = some r := by
  have hpick : (pick results below).get? id = some r → results.get? id = some r := by
    intro hr
    rw [get?_pick] at hr
    split at hr
    · exact hr
    · cases hr
  cases ref with
  | feature file =>
    rw [pickedBy, OrderedMap.get?_insert] at h
    split at h
    · exact .inl (Option.some.inj h).symm
    · exact .inr (hpick h)
  | _ => exact .inr (hpick h)

/-- The results of nodes above that are definite. -/
theorem mem_rolled :
    r ∈ (((f.above x).map NodeRef.id).filterMap (verdicts report file f).get?).filter isSettled ↔
    ∃ y ∈ f.above x, (verdicts report file f).get? y.id = some r ∧ isSettled r = true := by
  simp only [List.mem_filter, List.mem_filterMap, List.mem_map]
  constructor
  · rintro ⟨⟨_, ⟨y, hy, rfl⟩, hr⟩, hs⟩
    exact ⟨y, hy, hr, hs⟩
  · rintro ⟨y, hy, hr, hs⟩
    exact ⟨⟨_, ⟨y, hy, rfl⟩, hr⟩, hs⟩

variable (h : c.Holds file f) (hx : f.Refers file x)

include h hx

/-- Only the root of a subtree can be a feature. -/
theorem eq_of_feature_mem_below (hy : NodeRef.feature file ∈ f.below x) : x = .feature file := by
  rcases mem_above_of_mem_below h.ordered hx .feature hy with he | he
  · exact he
  · nomatch he

/-- Of a subtree what is stated is the verdict, but for a feature at its root. -/
theorem get?_pick_below (hne : id ≠ file ∨ x ≠ .feature file) :
    (pick (verdicts report file f) ((f.below x).map NodeRef.id)).get? id = some r ↔
      ∃ y ∈ f.below x, y.id = id ∧ stated report f y = some r := by
  have hstated : ∀ y ∈ f.below x, y.id = id →
      stated report f y = (verdicts report file f).get? y.id := by
    intro y hy hid
    have hyref := hx.below h.ordered hy
    rw [stated_eq_verdict, hyref.file_eq]
    intro he
    rw [hyref.file_eq] at he
    subst he
    rcases hne with hne | hne
    · exact hne hid.symm
    · exact hne (eq_of_feature_mem_below h hx hy)
  rw [get?_pick]
  constructor
  · intro hget
    split at hget
    · rename_i hmem
      obtain ⟨y, hy, hid⟩ := List.mem_map.1 hmem
      exact ⟨y, hy, hid, by rw [hstated y hy hid, hid, hget]⟩
    · cases hget
  · rintro ⟨y, hy, hid, hr⟩
    rw [if_pos (hid ▸ List.mem_map_of_mem hy), ← hid, ← hstated y hy hid, hr]

/-- The results that are picked for a node are what is stated about its subtree. -/
theorem get?_pickedBy :
    (pickedBy report x f (verdicts report file f) ((f.below x).map NodeRef.id)).get? id = some r ↔
      ∃ y ∈ f.below x, y.id = id ∧ stated report f y = some r := by
  by_cases hxf : x = .feature file
  · subst hxf
    rw [pickedBy, OrderedMap.get?_insert]
    by_cases hid : id = file
    · rw [if_pos hid, hid]
      constructor
      · rintro ⟨⟩
        exact ⟨.feature file, self_mem_below h.ordered hx, rfl, rfl⟩
      · rintro ⟨y, hy, he, hr⟩
        have : y = .feature file := h.id_inj (hx.below h.ordered hy) .feature he
        rw [this] at hr
        exact hr
    · rw [if_neg hid]
      exact get?_pick_below h hx (.inl hid)
  · have hpicked : pickedBy report x f (verdicts report file f) ((f.below x).map NodeRef.id) =
        pick (verdicts report file f) ((f.below x).map NodeRef.id) := by
      cases x with
      | feature file' => exact absurd (congrArg NodeRef.feature hx.file_eq) hxf
      | _ => rfl
    rw [hpicked]
    exact get?_pick_below h hx (.inr hxf)

/-- Applying a report to a node of the catalog. -/
theorem applyTo_id : ∃ a, applyTo c root report x.id = .ok (some a) ∧
    a.picked = pickedBy report x f (verdicts report file f) ((f.below x).map NodeRef.id) ∧
    a.rolled = (((f.above x).map NodeRef.id).filterMap (verdicts report file f).get?).filter
      isSettled := by
  obtain rfl := hx.file_eq
  exact ⟨_, applyTo_eq_some_iff.2 ⟨x, f, _, _, h.read_id hx, h.get, h.descendants_id hx,
    h.ancestors_id hx, rfl⟩, rfl, rfl⟩

end FeatureRun.Run
