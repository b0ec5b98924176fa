import FeatureRun.Proofs.Catalog.Node
import FeatureRun.Proofs.Except
import FeatureRun.Proofs.OrderedMap

/-!
# The roots of a selection

Of a selection of nodes those are kept that have no other selected node above them. The nodes that
are kept are known, so that nothing is wrong with the selection. Whatever the catalog, each of them
is kept once, and selecting some of them again leaves them as they are.
-/
set_option autoImplicit false

namespace FeatureRun.Catalog

open Feature

variable {c : Catalog} {file : String} {f : Feature} {x : NodeRef} {ids roots : List String}

/-- The selection that counts: the given one, or all features. -/
def chosen (c : Catalog) (ids : Option (List String)) : List String :=
  ids.getD (c.sorted.map Feature.path)

/-- A selected node that has no selected node above it. -/
structure IsRoot (c : Catalog) (ids : List String) (file : String) (f : Feature) (x : NodeRef) :
    Prop where
  holds : c.Holds file f
  refers : f.Refers file x
  mem : x.id ∈ ids
  alone : ∀ y ∈ f.above x, y.id ∉ ids

/-- The features of a catalog are nodes of it. -/
theorem isNode_of_mem_sorted (hc : c.Parsed) (h : f ∈ c.sorted) : c.IsNode f.path := by
  obtain ⟨⟨file, f⟩, he, rfl⟩ := List.mem_map.1 h
  have hget : c.get? file = some f :=
    OrderedMap.mem_entries_iff.1 ((List.mergeSort_perm _ _).mem_iff.1 he)
  have hholds := hc.holds hget
  exact (isNode_iff hc).2 ⟨file, f, .feature file, hholds, .feature, hholds.path.symm⟩

theorem isNode_of_mem_chosen (hc : c.Parsed) {ids : Option (List String)}
    (hids : ∀ id ∈ ids.getD [], c.IsNode id) : ∀ id ∈ c.chosen ids, c.IsNode id := by
  cases ids with
  | some ids => exact hids
  | none =>
    intro id hid
    obtain ⟨f, hf, rfl⟩ := List.mem_map.1 hid
    exact isNode_of_mem_sorted hc hf

/-- Whether a node above `id` is among the chosen ones; nothing is above an id that cannot be
read. -/
def coveredBy (c : Catalog) (selected : List String) (id : String) : Bool :=
  match c.covered selected id with
  | .ok b => b
  | .error _ => false

theorem covered_eq_coveredBy (h : c.Holds file f) (hx : f.Refers file x) (selected : List String) :
    c.covered selected x.id = .ok (c.coveredBy selected x.id) := by
  rw [coveredBy, h.covered_id hx]

theorem coveredBy_eq_false_iff (h : c.Holds file f) (hx : f.Refers file x)
    (selected : List String) :
    c.coveredBy selected x.id = false ↔ ∀ y ∈ f.above x, y.id ∉ selected := by
  rw [coveredBy, h.covered_id hx]
  simp

/-- What is not covered is kept. -/
theorem uncovered_eq {selected : List String}
    (h : ∀ id ∈ ids, c.covered selected id = .ok (c.coveredBy selected id)) :
    c.uncovered selected ids = .ok (ids.filter fun id => !c.coveredBy selected id) := by
  induction ids with
  | nil => rfl
  | cons id ids ih =>
    have htail := ih fun b hb => h b (List.mem_cons_of_mem _ hb)
    rw [uncovered, h id List.mem_cons_self]
    cases hp : c.coveredBy selected id with
    | true => simp [hp, htail]
    | false => simp [hp, htail, Except.map]

/-- The roots of a selection of nodes: those without a selected node above them. -/
theorem selectRoots_eq (hc : c.Parsed) (hids : ∀ id ∈ ids, c.IsNode id) :
    ∃ roots, c.selectRoots ids = .ok roots ∧
      ∀ id, id ∈ roots ↔ ∃ file f x, c.IsRoot ids file f x ∧ x.id = id := by
  have hcovered : ∀ id ∈ ids.eraseDups,
      c.covered ids.eraseDups id = .ok (c.coveredBy ids.eraseDups id) := by
    intro id hid
    obtain ⟨file, f, x, h, hx, rfl⟩ := (isNode_iff hc).1 (hids id (List.mem_eraseDups.1 hid))
    exact covered_eq_coveredBy h hx _
  refine ⟨_, uncovered_eq hcovered, fun id => ?_⟩
  rw [List.mem_filter, List.mem_eraseDups, Bool.not_eq_true']
  constructor
  · rintro ⟨hid, hout⟩
    obtain ⟨file, f, x, h, hx, rfl⟩ := (isNode_iff hc).1 (hids id hid)
    have halone := (coveredBy_eq_false_iff h hx _).1 hout
    exact ⟨file, f, x, ⟨h, hx, hid, fun y hy => mt List.mem_eraseDups.2 (halone y hy)⟩, rfl⟩
  · rintro ⟨file, f, x, hroot, rfl⟩
    refine ⟨hroot.mem, (coveredBy_eq_false_iff hroot.holds hroot.refers _).2 fun y hy => ?_⟩
    exact mt List.mem_eraseDups.1 (hroot.alone y hy)

/-- Nothing is unknown exactly if every id names something. -/
theorem unknownIn_eq_nil_iff :
    c.unknownIn ids = .ok [] ↔ ∀ id ∈ ids, ∃ node, c.resolve id = .ok (some node) := by
  induction ids with
  | nil => simp [unknownIn]
  | cons id ids ih =>
    rw [unknownIn, List.forall_mem_cons, ← ih]
    cases c.resolve id with
    | error e => simp
    | ok node? =>
      cases node? with
      | some node => simp
      | none => cases c.unknownIn ids <;> simp [Except.map]

/-- Nothing is unknown about nodes of the catalog. -/
theorem unknownIn_eq_nil (hc : c.Parsed) (hids : ∀ id ∈ ids, c.IsNode id) :
    c.unknownIn ids = .ok [] := by
  refine unknownIn_eq_nil_iff.2 fun id hid => ?_
  obtain ⟨file, f, x, h, hx, rfl⟩ := (isNode_iff hc).1 (hids id hid)
  exact h.resolve_id hx

/-- A selection of nodes of the catalog is accepted, and leaves its roots. -/
theorem select_eq (hc : c.Parsed) {ids : Option (List String)}
    (hids : ∀ id ∈ ids.getD [], c.IsNode id) :
    ∃ roots, c.select ids = .ok roots ∧
      ∀ id, id ∈ roots ↔ ∃ file f x, c.IsRoot (c.chosen ids) file f x ∧ x.id = id := by
  obtain ⟨roots, hroots, hmem⟩ := selectRoots_eq hc (isNode_of_mem_chosen hc hids)
  have hknown : c.unknownIn roots = .ok [] := by
    refine unknownIn_eq_nil hc fun id hid => ?_
    obtain ⟨file, f, x, hroot, rfl⟩ := (hmem id).1 hid
    exact (isNode_iff hc).2 ⟨file, f, x, hroot.holds, hroot.refers, rfl⟩
  refine ⟨roots, ?_, hmem⟩
  rw [select, ← chosen, hroots]
  simp only [hknown]

/-- The roots of a selection of nodes are nodes. -/
theorem isNode_of_select (hc : c.Parsed) {ids : Option (List String)}
    (hids : ∀ id ∈ ids.getD [], c.IsNode id) (h : c.select ids = .ok roots) :
    ∀ id ∈ roots, c.IsNode id := by
  obtain ⟨roots', hselect, hmem⟩ := select_eq hc hids
  cases h.symm.trans hselect
  intro id hid
  obtain ⟨file, f, x, hroot, rfl⟩ := (hmem id).1 hid
  exact (isNode_iff hc).2 ⟨file, f, x, hroot.holds, hroot.refers, rfl⟩

/-! ## Selections of any catalog -/

theorem nodup_eraseDups (ids : List String) : ids.eraseDups.Nodup := by
  match ids with
  | [] => exact List.nodup_nil
  | id :: ids =>
    rw [List.eraseDups_cons, List.nodup_cons]
    refine ⟨fun h => ?_, nodup_eraseDups _⟩
    have hmem := List.mem_eraseDups.1 h
    rw [List.mem_filter] at hmem
    simp at hmem
termination_by ids.length
decreasing_by exact Nat.lt_succ_of_le (List.length_filter_le _ _)

theorem sublist_of_uncovered {selected : List String} (h : c.uncovered selected ids = .ok roots) :
    roots.Sublist ids := by
  induction ids generalizing roots with
  | nil =>
    cases h
    exact .refl _
  | cons id ids ih =>
    rw [uncovered] at h
    split at h
    · nomatch h
    · exact (ih h).cons id
    · obtain ⟨rest, hrest, rfl⟩ := exists_of_map_ok h
      exact (ih hrest).cons_cons id

theorem of_select {ids : Option (List String)} (h : c.select ids = .ok roots) :
    c.selectRoots (c.chosen ids) = .ok roots ∧ c.unknownIn roots = .ok [] := by
  rw [select, ← chosen] at h
  split at h
  · nomatch h
  · rename_i found hroots
    split at h
    · nomatch h
    · rename_i hknown
      cases h
      exact ⟨hroots, hknown⟩
    · nomatch h

/-- Each root of a selection is selected once. -/
theorem nodup_of_select {ids : Option (List String)} (h : c.select ids = .ok roots) :
    roots.Nodup :=
  (sublist_of_uncovered (of_select h).1).nodup (nodup_eraseDups _)

theorem length_eraseDups_le (ids : List String) : ids.eraseDups.length ≤ ids.length :=
  (nodup_eraseDups ids).length_le_of_subset fun _ => List.mem_eraseDups.1

/-- A selection has no more roots than nodes are selected. -/
theorem length_le_of_select {ids : Option (List String)} (h : c.select ids = .ok roots) :
    roots.length ≤ (c.chosen ids).length :=
  Nat.le_trans (sublist_of_uncovered (of_select h).1).length_le (length_eraseDups_le _)

theorem exists_read_of_select {ids : Option (List String)} (h : c.select ids = .ok roots) :
    ∀ id ∈ roots, ∃ ref, NodeRef.read id = .ok ref := by
  intro id hid
  obtain ⟨node, hnode⟩ := unknownIn_eq_nil_iff.1 (of_select h).2 id hid
  obtain ⟨ref, href, -⟩ := exists_of_map_ok hnode
  exact ⟨ref, href⟩

/-! ## Roots again -/

theorem eraseDups_of_nodup (h : ids.Nodup) : ids.eraseDups = ids := by
  induction ids with
  | nil => rfl
  | cons id ids ih =>
    obtain ⟨hid, h⟩ := List.nodup_cons.1 h
    have hfilter : ids.filter (fun b => !b == id) = ids :=
      List.filter_eq_self.2 fun b hb => by simp [show b ≠ id from fun he => hid (he ▸ hb)]
    rw [List.eraseDups_cons, hfilter, ih h]

/-- The climb from an id passes no chosen one if its first step comes to an end, or to another id
from which it passes none. -/
theorem coveredFrom_succ_iff {selected : List String} {n : Nat} {id : String} :
    c.coveredFrom selected (n + 1) id = .ok false ↔ c.parent id = .ok none ∨
      ∃ p, c.parent id = .ok (some p) ∧ p ∉ selected ∧
        c.coveredFrom selected n p = .ok false := by
  rw [coveredFrom]
  cases c.parent id with
  | error e => simp
  | ok p? =>
    cases p? with
    | none => simp
    | some p => by_cases hp : p ∈ selected <;> simp [hp]

/-- What has none of the chosen ones above it has none of a part of them. -/
theorem coveredFrom_mono {selected part : List String} (hpart : part ⊆ selected) {n : Nat}
    {id : String} (h : c.coveredFrom selected n id = .ok false) :
    c.coveredFrom part n id = .ok false := by
  induction n generalizing id with
  | zero => rfl
  | succ n ih =>
    refine coveredFrom_succ_iff.2 ((coveredFrom_succ_iff.1 h).imp_right ?_)
    rintro ⟨p, hparent, hp, hrest⟩
    exact ⟨p, hparent, mt (@hpart p) hp, ih hrest⟩

theorem covered_of_uncovered {selected : List String} (h : c.uncovered selected ids = .ok roots) :
    ∀ id ∈ roots, c.covered selected id = .ok false := by
  induction ids generalizing roots with
  | nil =>
    cases h
    exact List.forall_mem_nil _
  | cons id ids ih =>
    rw [uncovered] at h
    split at h
    · nomatch h
    · exact ih h
    · rename_i hcovered
      obtain ⟨rest, hrest, rfl⟩ := exists_of_map_ok h
      exact List.forall_mem_cons.2 ⟨hcovered, ih hrest⟩

theorem uncovered_eq_self {selected : List String}
    (h : ∀ id ∈ ids, c.covered selected id = .ok false) :
    c.uncovered selected ids = .ok ids := by
  induction ids with
  | nil => rfl
  | cons id ids ih =>
    obtain ⟨hid, hrest⟩ := List.forall_mem_cons.1 h
    rw [uncovered, hid, ih hrest]
    rfl

/-- Some of the roots of a selection are their own roots. -/
theorem selectRoots_of_sublist {part : List String} (h : c.selectRoots ids = .ok roots)
    (hpart : part.Sublist roots) : c.selectRoots part = .ok part := by
  have hsub : roots.Sublist ids.eraseDups := sublist_of_uncovered h
  rw [selectRoots, eraseDups_of_nodup (hpart.nodup (hsub.nodup (nodup_eraseDups ids)))]
  refine uncovered_eq_self fun id hid => ?_
  exact coveredFrom_mono (hpart.trans hsub).subset (covered_of_uncovered h id (hpart.subset hid))

/-- Selecting some of the roots of a selection leaves them as they are. -/
theorem select_of_sublist {ids : Option (List String)} {part : List String}
    (h : c.select ids = .ok roots) (hpart : part.Sublist roots) :
    c.select (some part) = .ok part := by
  obtain ⟨hroots, hknown⟩ := of_select h
  have hpartKnown : c.unknownIn part = .ok [] :=
    unknownIn_eq_nil_iff.2 fun id hid => unknownIn_eq_nil_iff.1 hknown id (hpart.subset hid)
  rw [select, Option.getD_some, selectRoots_of_sublist hroots hpart]
  simp only [hpartKnown]

end FeatureRun.Catalog
