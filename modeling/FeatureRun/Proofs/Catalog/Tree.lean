import FeatureRun.Proofs.Catalog.Node

/-!
# One tree of ids

Looking down from an id, looking up from it, and looking up what it names are three separate
operations. For a feature that was read from a file they describe one tree, whose root is the id of
the file.

* `climb`: going from parent to parent.
* `FormTree`: what it means for the three to agree.
* `formTree_descendants`: the ids below a file form a tree.
-/
set_option autoImplicit false

namespace FeatureRun

/-- The line on which a node stands. -/
def CatalogNode.line : CatalogNode → Int
  | .feature f => f.line
  | .rule r => r.line
  | .scenario s => s.line
  | .row r => r.line

/-- The line that a reference gives for its node; a feature is found without one. -/
def NodeRef.line? : NodeRef → Option Int
  | .feature _ => none
  | .rule _ n => some n
  | .scenario _ n => some n
  | .row _ _ n => some n

namespace Feature

variable {f : Feature} {file : String} {x : NodeRef} {node : CatalogNode}

theorem Denotes.line_eq (h : f.Denotes file x node) {n : Int} (hn : x.line? = some n) :
    node.line = n := by
  cases h <;> simp_all [NodeRef.line?, CatalogNode.line]

/-- The references to the nodes below a feature stand in the order of the nodes. -/
theorem lines_childRefs (f : Feature) (file : String) :
    (f.children.flatMap (childRefs file)).map NodeRef.line? =
      f.nodes.map fun x => some x.line := by
  have hscenario : ∀ s : Scenario, (scenarioRefs file s).map NodeRef.line? =
      (scenarioNodes s).map fun x => some x.line := by
    intro s
    simp [scenarioRefs, scenarioNodes, NodeRef.line?, Node.line, rowNode]
  have hchild : ∀ child : Child, (childRefs file child).map NodeRef.line? =
      (childNodes child).map fun x => some x.line := by
    intro child
    cases child with
    | scenario s => exact hscenario s
    | rule r =>
      simp [childRefs, ruleRefs, childNodes, List.map_flatMap, hscenario, NodeRef.line?, Node.line]
  simp [nodes, nodesOf, List.map_flatMap, hchild]

/-- They stand on increasing lines, -/
theorem pairwise_childRefs (hf : f.Ordered) :
    (f.children.flatMap (childRefs file)).Pairwise fun x y =>
      ∃ m n, x.line? = some m ∧ y.line? = some n ∧ m < n := by
  have hlines : ((f.children.flatMap (childRefs file)).map NodeRef.line?).Pairwise fun a b =>
      ∃ m n, a = some m ∧ b = some n ∧ m < n := by
    rw [lines_childRefs, List.pairwise_map]
    exact (List.pairwise_map.1 hf.lines).imp fun h => ⟨_, _, rfl, rfl, h⟩
  exact List.pairwise_map.1 hlines

/-- and none of them is a reference to the feature. -/
theorem line?_ne_none (hx : x ∈ f.children.flatMap (childRefs file)) : x.line? ≠ none := by
  have hmem := List.mem_map_of_mem (f := NodeRef.line?) hx
  rw [lines_childRefs] at hmem
  obtain ⟨y, -, hy⟩ := List.mem_map.1 hmem
  simp [← hy]

/-- No node of a feature is referred to twice. -/
theorem nodup_refs (hf : f.Ordered) (file : String) : (f.refs file).Nodup := by
  refine List.nodup_cons.2 ⟨fun h => line?_ne_none h rfl, ?_⟩
  refine (pairwise_childRefs hf).imp ?_
  rintro x y ⟨m, n, hm, hn, hlt⟩ rfl
  rw [hm] at hn
  cases hn
  exact absurd hlt (Int.lt_irrefl m)

/-- Above any node of a feature stands the feature last. -/
theorem getElem?_length_above (hx : f.Refers file x) :
    (x :: f.above x)[(f.above x).length]? = some (.feature file) := by
  cases hx with
  | feature => rfl
  | rule => rfl
  | scenario => simp [above]
  | row => simp [above]

end Feature

namespace Catalog

open Feature

/-- The id that is reached after so many steps from a node to its parent; none if there is no parent
before. -/
def climb (c : Catalog) (steps : Nat) (id : String) : Lookup (Option String) :=
  match steps with
  | 0 => .ok (some id)
  | n + 1 =>
    match c.parent id with
    | .error e => .error e
    | .ok none => .ok none
    | .ok (some p) => c.climb n p

/-- The ids of the nodes of a feature form a tree with the id of its file as the root. -/
structure FormTree (c : Catalog) (file : String) (f : Feature) (ids : List String) : Prop where
  nodup : ids.Nodup
  /-- The root comes first, and all others stand in the order of their lines. -/
  inOrder : ∃ rest, ids = file :: rest ∧ rest.Pairwise fun a b => ∀ x y,
    c.resolve a = .ok (some x) → c.resolve b = .ok (some y) → x.line < y.line
  /-- Every node has its id among them, and the id names the node. -/
  complete : ∀ x node, f.Denotes file x node → x.id ∈ ids ∧ c.resolve x.id = .ok (some node)
  /-- There are no other ids. -/
  sound : ∀ id ∈ ids, ∃ x node, f.Denotes file x node ∧ x.id = id
  /-- From every id three steps up at most lead to the root, above which there is nothing. -/
  rooted : ∀ id ∈ ids, ∃ n ≤ 3, c.climb n id = .ok (some file) ∧ c.climb (n + 1) id = .ok none
  /-- What is below an id has it above. -/
  subtrees : ∀ a ∈ ids, ∃ below, c.descendants a = .ok below ∧ ∀ b ∈ ids,
    (b ∈ below ↔ a = b ∨ ∃ n, 0 < n ∧ c.climb n b = .ok (some a))

namespace Holds

variable {c : Catalog} {file : String} {f : Feature} {x y : NodeRef}

/-- Climbing follows the references above a node. -/
theorem climb_id (h : c.Holds file f) (hx : f.Refers file x) (n : Nat) :
    c.climb n x.id = .ok ((x :: f.above x)[n]?.map NodeRef.id) := by
  induction n generalizing x with
  | zero => rfl
  | succ n ih =>
    rw [climb, h.parent_id hx, above_eq]
    cases hp : f.parent? x with
    | none => rfl
    | some p => exact ih (hx.parent? h.ordered hp)

theorem climb_eq_some_iff (h : c.Holds file f) (hx : f.Refers file x) (hy : f.Refers file y) :
    (∃ n, 0 < n ∧ c.climb n y.id = .ok (some x.id)) ↔ x ∈ f.above y := by
  simp only [h.climb_id hy, Except.ok.injEq, Option.map_eq_some_iff]
  constructor
  · rintro ⟨n, hn, z, hz, hid⟩
    obtain ⟨n, rfl⟩ := Nat.exists_eq_succ_of_ne_zero (Nat.ne_of_gt hn)
    have hmem : z ∈ f.above y := List.mem_of_getElem? hz
    rwa [← h.id_inj (hy.above h.ordered hmem) hx hid]
  · intro hmem
    obtain ⟨n, hn⟩ := List.mem_iff_getElem?.1 hmem
    exact ⟨n + 1, Nat.succ_pos n, x, hn, rfl⟩

theorem formTree_refs (h : c.Holds file f) : c.FormTree file f ((f.refs file).map NodeRef.id) where
  nodup := by
    refine List.pairwise_map.2 ((nodup_refs h.ordered file).imp_of_mem ?_)
    intro x y hx hy hne he
    exact hne (h.id_inj (mem_refs.1 hx) (mem_refs.1 hy) he)
  inOrder := by
    refine ⟨_, rfl, List.pairwise_map.2 ((pairwise_childRefs h.ordered).imp_of_mem ?_)⟩
    rintro x y hx hy ⟨m, n, hm, hn, hlt⟩ nodeX nodeY hnodeX hnodeY
    obtain ⟨node, hnode⟩ := (mem_refs.1 (List.mem_cons_of_mem _ hx)).exists_denotes
    obtain ⟨node', hnode'⟩ := (mem_refs.1 (List.mem_cons_of_mem _ hy)).exists_denotes
    cases hnodeX.symm.trans (h.resolve_of_denotes hnode)
    cases hnodeY.symm.trans (h.resolve_of_denotes hnode')
    rwa [hnode.line_eq hm, hnode'.line_eq hn]
  complete x node hx :=
    ⟨List.mem_map_of_mem (mem_refs.2 hx.refers), h.resolve_of_denotes hx⟩
  sound id hid := by
    obtain ⟨x, hx, rfl⟩ := List.mem_map.1 hid
    obtain ⟨node, hnode⟩ := (mem_refs.1 hx).exists_denotes
    exact ⟨x, node, hnode, rfl⟩
  rooted id hid := by
    obtain ⟨x, hx, rfl⟩ := List.mem_map.1 hid
    have hx := mem_refs.1 hx
    refine ⟨(f.above x).length, length_above_le f x, ?_, ?_⟩
    · rw [h.climb_id hx, getElem?_length_above hx]
      rfl
    · rw [h.climb_id hx, List.getElem?_eq_none (by simp)]
      rfl
  subtrees a ha := by
    obtain ⟨x, hx, rfl⟩ := List.mem_map.1 ha
    have hx := mem_refs.1 hx
    refine ⟨_, h.descendants_id hx, fun b hb => ?_⟩
    obtain ⟨y, hy, rfl⟩ := List.mem_map.1 hb
    have hy := mem_refs.1 hy
    have hinj : ∀ {z}, f.Refers file z → (z.id = y.id ↔ z = y) := fun hz =>
      ⟨h.id_inj hz hy, congrArg NodeRef.id⟩
    rw [h.climb_eq_some_iff hx hy, hinj hx, ← mem_below_iff h.ordered hx hy, List.mem_map]
    constructor
    · rintro ⟨z, hz, hid⟩
      rwa [← (hinj (hx.below h.ordered hz)).1 hid]
    · intro hmem
      exact ⟨y, hmem, rfl⟩

end Holds

/-- The ids below the file of a feature that was read form a tree: looking down, looking up and
looking up what is named agree on every node. -/
theorem formTree_descendants {c : Catalog} {file text : String} {f : Feature}
    (hget : c.get? file = some f) (hread : Feature.read text file = some f)
    (hid : IsFileId file) (hfits : Fits (linesOf text).length) :
    ∃ ids, c.descendants file = .ok ids ∧ c.FormTree file f ids := by
  have h := holds_of_read hget hid hread hfits
  exact ⟨_, h.descendants_id (x := .feature file) .feature, h.formTree_refs⟩

/-- A row of an outline in a rule, which is as deep as a tree gets. -/
theorem formTree_of_outline : ∃ (c : Catalog) (f : Feature) (text : String),
    c.get? "a.feature" = some f ∧ Feature.read text "a.feature" = some f ∧
    IsFileId "a.feature" ∧ Fits (linesOf text).length ∧
    f.Denotes "a.feature" (.row "a.feature" 3 6) (.row ⟨6, "| 1 |"⟩) ∧
    ∃ ids, c.descendants "a.feature" = .ok ids ∧ c.FormTree "a.feature" f ids := by
  let text := "Feature: A\nRule: R\nScenario Outline: B\nExamples:\n| x |\n| 1 |"
  let outline : Scenario := ⟨"B", 3, true, [⟨6, "| 1 |"⟩]⟩
  let f : Feature := ⟨"A", 1, "a.feature", [.rule ⟨"R", 2, [outline]⟩]⟩
  have hread : Feature.read text "a.feature" = some f := by decide
  have hget : (Catalog.empty.readFile "a.feature" text).get? "a.feature" = some f := by decide
  have hid : IsFileId "a.feature" := ⟨by decide, by decide, by decide⟩
  have hfits : Fits (linesOf text).length := ⟨by decide⟩
  have hrow : f.Denotes "a.feature" (.row "a.feature" 3 6) (.row ⟨6, "| 1 |"⟩) :=
    .row (s := outline) (by decide) (List.mem_singleton.2 rfl)
  exact ⟨_, f, text, hget, hread, hid, hfits, hrow, formTree_descendants hget hread hid hfits⟩

end Catalog
end FeatureRun
