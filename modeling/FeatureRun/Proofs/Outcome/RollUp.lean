import FeatureRun.Outcome.RollUp
import FeatureRun.Proofs.Catalog.Refs
import FeatureRun.Proofs.OrderedMap

/-!
# Every node has its result

Rolling outcomes up gives one result for every node of the feature and for nothing else, each under
the id of its node. The results stand in the order in which they are found: every node behind those
below it.
-/
set_option autoImplicit false

namespace FeatureRun.RollUp

open Feature

/-- The references to the rows of a scenario, then to the scenario. -/
def scenarioOrder (file : String) (s : Scenario) : List NodeRef :=
  s.rows.map (fun r => .row file s.line r.line) ++ [.scenario file s.line]

def childOrder (file : String) : Child → List NodeRef
  | .scenario s => scenarioOrder file s
  | .rule r => r.scenarios.flatMap (scenarioOrder file) ++ [.rule file r.line]

/-- The references to the nodes of a feature, every node behind those below it. -/
def order (file : String) (f : Feature) : List NodeRef :=
  f.children.flatMap (childOrder file) ++ [.feature file]

variable {file id : String} {f : Feature} {ms : List Match} {x : NodeRef}

theorem mem_scenarioOrder {s : Scenario} : x ∈ scenarioOrder file s ↔ x ∈ scenarioRefs file s := by
  simp [scenarioOrder, scenarioRefs, or_comm]

theorem mem_childOrder {c : Child} : x ∈ childOrder file c ↔ x ∈ childRefs file c := by
  cases c with
  | scenario s => exact mem_scenarioOrder
  | rule r => simp [childOrder, childRefs, ruleRefs, mem_scenarioOrder, or_comm]

theorem mem_order : x ∈ order file f ↔ f.Refers file x := by
  rw [← mem_refs, order, refs, List.mem_append, List.mem_singleton, List.mem_cons, or_comm]
  simp only [List.mem_flatMap, mem_childOrder]

theorem map_mapIdx_eq {α β γ : Type} {g : Nat → α → β} {h : β → γ} {k : α → γ}
    (hk : ∀ i a, h (g i a) = k a) (xs : List α) : (xs.mapIdx g).map h = xs.map k := by
  refine List.ext_getElem (by simp) fun i _ _ => ?_
  simp [hk]

theorem ids_rowResults (index : Nat) (s : Scenario) :
    (rowResults file ms index s).map Result.id = s.rows.map fun r => rowId file s.line r.line :=
  map_mapIdx_eq (g := rowResult file ms index s) (h := Result.id) (fun _ _ => rfl) s.rows

/-- The results of scenarios stand in order, whatever the index of the first. -/
theorem ids_nodeResults (index : Nat) (ss : List Scenario) :
    (nodeResults file ms index ss).map Result.id =
      (ss.flatMap (scenarioOrder file)).map NodeRef.id := by
  rw [nodeResults, List.map_flatten, List.map_flatMap, List.flatMap_def]
  congr 1
  refine map_mapIdx_eq (fun i s => ?_) ss
  rw [List.map_append, ids_rowResults, scenarioOrder, List.map_append, List.map_map]
  rfl

theorem ids_childResults (index : Nat) (cs : List Child) :
    (childResults file ms index cs).map Result.id =
      (cs.flatMap (childOrder file)).map NodeRef.id := by
  induction cs generalizing index with
  | nil => rfl
  | cons c cs ih =>
    cases c with
    | scenario s =>
      rw [childResults, List.map_append, ids_nodeResults, ih, List.flatMap_cons, List.map_append]
      simp [childOrder]
    | rule r =>
      rw [childResults, List.map_append, ids_nodeResults, List.map_cons, ih, List.flatMap_cons,
        childOrder, List.map_append, List.map_append, List.append_assoc]
      rfl

/-- The results of a feature have the ids of its nodes as keys. -/
theorem mem_keys_results : id ∈ (results file f ms).keys ↔ ∃ x, f.Refers file x ∧ x.id = id := by
  have hkeys : ∀ rs : List Result,
      (rs.map fun r => (r.id, r)).map Prod.fst = rs.map Result.id := fun rs => by simp
  rw [results, OrderedMap.mem_keys_ofList, hkeys, List.map_append, ids_childResults]
  have horder : (f.children.flatMap (childOrder file)).map NodeRef.id ++
      [group file (scenarioResults file ms 0 f.scenarios)].map Result.id =
      (order file f).map NodeRef.id := by
    rw [order, List.map_append]
    rfl
  simp only [horder, List.mem_map, mem_order]

/-- Every result is that of the node it is found under. -/
theorem id_of_get?_results {r : Result} (h : (results file f ms).get? id = some r) : r.id = id := by
  obtain ⟨r, -, he⟩ := List.mem_map.1 (OrderedMap.mem_of_get?_ofList h)
  cases he
  rfl

end FeatureRun.RollUp
