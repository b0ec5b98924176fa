import FeatureRun.Proofs.Catalog.Node
import FeatureRun.Proofs.Catalog.Update
import FeatureRun.Proofs.Feature.Grammar
import FeatureRun.Proofs.Feature.Growth

/-!
# Text that is added to a file of the catalog

When the tree of a file goes on at its end, so does what is listed below each of its nodes, and
nothing changes below the nodes of other files. The nodes that come after it may have ids that are
not read back, and then nothing is listed any more.

* `Kept`: a listing that succeeds now did so before, and has only gone on since.
* `kept_childListing`: what is listed below a node goes on with the node.
* `kept_descendants`: so it does for every id of a catalog in which one feature has gone on.
* `descendants_of_append`: the same for texts.
-/
set_option autoImplicit false

namespace FeatureRun.Catalog

open Feature

/-- A listing that succeeds now succeeded before, and has gone on at its end at most. -/
def Kept (before now : Lookup (List String)) : Prop :=
  ∀ ids', now = .ok ids' → ∃ ids, before = .ok ids ∧ ids <+: ids'

namespace Kept

variable {a b : Lookup (List String)}

theorem refl (a : Lookup (List String)) : Kept a a := fun ids h => ⟨ids, h, List.prefix_rfl⟩

theorem nil (b : Lookup (List String)) : Kept (.ok []) b := fun _ _ => ⟨[], rfl, List.nil_prefix⟩

theorem cons (id : String) (h : Kept a b) : Kept (a.map (id :: ·)) (b.map (id :: ·)) := by
  intro ids' hids'
  obtain ⟨below', hb, rfl⟩ := exists_of_map_ok hids'
  obtain ⟨below, ha, hprefix⟩ := h below' hb
  exact ⟨id :: below, by rw [ha]; rfl, List.cons_prefix_cons.2 ⟨rfl, hprefix⟩⟩

/-- Listings behind each other go on if only the last of them does, and others follow. -/
theorem concat {α : Type} {R : α → α → Prop} {p : α → Lookup (List String)} {xs ys : List α}
    (hp : ∀ x y, R x y → Kept (p x) (p y)) (h : Grown R xs ys) :
    Kept (Catalog.concat (xs.map p)) (Catalog.concat (ys.map p)) := by
  induction h with
  | more ys => exact nil _
  | @last x y ys hxy =>
    intro ids' hids'
    rw [List.map_cons, Catalog.concat.eq_def] at hids'
    cases hy : p y with
    | error e => simp [hy] at hids'
    | ok part =>
      simp only [hy] at hids'
      obtain ⟨rest, -, rfl⟩ := exists_of_map_ok hids'
      obtain ⟨ids, hx, hprefix⟩ := hp x y hxy part hy
      refine ⟨ids ++ [], ?_, ?_⟩
      · rw [List.map_cons, hx]
        rfl
      · rw [List.append_nil]
        exact hprefix.trans (List.prefix_append _ _)
  | @keep x xs ys _ ih =>
    rw [List.map_cons, List.map_cons]
    cases hx : p x with
    | error e => exact refl _
    | ok part =>
      intro ids' hids'
      obtain ⟨rest', hrest', rfl⟩ := exists_of_map_ok hids'
      obtain ⟨rest, hrest, hprefix⟩ := ih rest' hrest'
      exact ⟨part ++ rest, by rw [Catalog.concat, hrest]; rfl,
        (List.prefix_append_right_inj _).2 hprefix⟩

end Kept

/-! ## Listings of nodes that grow -/

section Grow

variable {file : String}

theorem kept_scenarioListing (s t : Scenario) (h : s.Grows t) :
    Kept (scenarioListing file s) (scenarioListing file t) := by
  obtain ⟨rows, rfl⟩ := h
  intro ids' hids'
  obtain ⟨x, hx, rfl⟩ := exists_of_map_ok hids'
  refine ⟨(scenarioRefs file s).map NodeRef.id, by rw [scenarioListing, hx]; rfl, ?_⟩
  simp [scenarioRefs]

theorem kept_scenarios (file : String) {r q : Rule} (h : r.Grows q) :
    Kept (concat (r.scenarios.map (scenarioListing file)))
      (concat (q.scenarios.map (scenarioListing file))) := by
  obtain ⟨ss, rfl, hgrown⟩ := h
  exact .concat kept_scenarioListing hgrown

theorem kept_childListing (a b : Child) (h : a.Grows b) :
    Kept (childListing file a) (childListing file b) := by
  cases h with
  | scenario h => exact kept_scenarioListing _ _ h
  | @rule r q h =>
    have hbelow := kept_scenarios file h
    obtain ⟨ss, rfl, -⟩ := h
    rw [childListing, childListing, ruleListing, ruleListing]
    cases NodeRef.read (ruleId file r.line) with
    | error e => exact .refl _
    | ok x => exact hbelow.cons _

end Grow

/-! ## A catalog in which a feature grows -/

section Growing

variable {c c' : Catalog} {file id : String} {f g : Feature} {x : NodeRef}

/-- Below a node of a file, nothing depends on other files. -/
theorem descendantsFrom_congr (hsame : c.get? file = c'.get? file) (n : Nat)
    (hid : ∀ x, NodeRef.read id = .ok x → x.file = file) :
    c.descendantsFrom n id = c'.descendantsFrom n id := by
  induction n generalizing id with
  | zero => rfl
  | succ n ih =>
    rw [descendantsFrom, descendantsFrom]
    cases hread : NodeRef.read id with
    | error e => rfl
    | ok x =>
      have hfile := hid x hread
      have hnode : c.node? x = c'.node? x := by rw [node?, node?, hfile, hsame]
      have hscenario : ∀ s : Scenario, c.descendantsFrom n (scenarioId file s.line) =
          c'.descendantsFrom n (scenarioId file s.line) := fun s =>
        ih fun y hy => by rw [NodeRef.eq_of_read_scenarioId hy, NodeRef.file]
      have hrule : ∀ r : Rule, c.descendantsFrom n (ruleId file r.line) =
          c'.descendantsFrom n (ruleId file r.line) := fun r =>
        ih fun y hy => by rw [NodeRef.eq_of_read_ruleId hy, NodeRef.file]
      simp only [hnode, hfile, hscenario, hrule]

theorem descendantsFrom_eq_nil (hread : NodeRef.read id = .ok x) (hnode : c.node? x = none)
    (n : Nat) : c.descendantsFrom (n + 1) id = .ok [] := by
  rw [descendantsFrom, hread]
  simp only [hnode]

section

variable (hget : c.get? file = some f) (hget' : c'.get? file = some g) (hf : f.Ordered)
  (hg : g.Ordered) (hgrows : f.Grows g)

include hget hget' hf hg hgrows

/-- What is listed below a node of the feature goes on when the feature grows. -/
theorem kept_of_denotes {node : CatalogNode} (hx : f.Denotes file x node)
    (hread : NodeRef.read id = .ok x) : Kept (c.descendants id) (c'.descendants id) := by
  rw [descendants, descendants]
  cases hx with
  | feature =>
    rw [descendantsFrom_of_read_feature hget hf hread,
      descendantsFrom_of_read_feature hget' hg hread]
    exact .cons _ (.concat kept_childListing hgrows.children)
  | rule hr =>
    obtain ⟨q, hq, hrq⟩ := hgrows.exists_rule hr
    rw [descendantsFrom_of_read_rule hget hf hr hread]
    have hbelow := kept_scenarios file hrq
    obtain ⟨ss, rfl, -⟩ := hrq
    rw [descendantsFrom_of_read_rule hget' hg hq hread]
    exact hbelow.cons _
  | scenario hs =>
    obtain ⟨t, ht, hst⟩ := hgrows.exists_scenario hs
    rw [descendantsFrom_of_read_scenario hget hf hs hread]
    obtain ⟨rows, rfl⟩ := hst
    rw [descendantsFrom_of_read_scenario hget' hg ht hread]
    rintro _ ⟨⟩
    exact ⟨_, rfl, by simp⟩
  | row hs hrow =>
    obtain ⟨t, ht, hst⟩ := hgrows.exists_scenario hs
    rw [descendantsFrom_of_read_row hget hf hs hrow hread]
    obtain ⟨rows, rfl⟩ := hst
    rw [descendantsFrom_of_read_row hget' hg ht (List.mem_append_left rows hrow) hread]
    exact .refl _

/-- When the feature of one file grows, so does what is listed below any id, if anything still
is. -/
theorem kept_descendants (hothers : ∀ other, other ≠ file → c.get? other = c'.get? other)
    (id : String) : Kept (c.descendants id) (c'.descendants id) := by
  cases hread : NodeRef.read id with
  | error e =>
    rw [descendants, descendants, descendantsFrom, descendantsFrom, hread]
    exact .refl _
  | ok x =>
    by_cases hfile : x.file = file
    · cases hnode : c.node? x with
      | none =>
        rw [descendants, descendantsFrom_eq_nil hread hnode]
        exact .nil _
      | some node =>
        obtain ⟨f', hget'', hx⟩ := exists_denotes_of_node? hnode
        rw [hfile] at hget'' hx
        obtain rfl : f = f' := Option.some.inj (hget.symm.trans hget'')
        exact kept_of_denotes hget hget' hf hg hgrows hx hread
    · have hsame := hothers _ hfile
      rw [descendants, descendants,
        descendantsFrom_congr hsame 3 fun y hy => by rw [Except.ok.inj (hread.symm.trans hy)]]
      exact .refl _

end

end Growing

/-! ## Text that goes on -/

theorem get?_readFile_self {c : Catalog} {file text : String} {f : Feature}
    (h : Feature.read text file = some f) : (c.readFile file text).get? file = some f := by
  have hget := get?_update c file file (.ok text)
  rwa [if_pos rfl, parsed?, Except.toOption, Option.bind_some, h] at hget

theorem get?_readFile_of_ne {c : Catalog} {file other : String} (text : String)
    (h : other ≠ file) : (c.readFile file text).get? other = c.get? other := by
  have hget := get?_update c file other (.ok text)
  rwa [if_neg h] at hget

/-- When text is added behind the last line of a file, its feature keeps its name, its line and its
nodes, in front of those that are added. Whatever is listed below an id afterwards begins with what
was listed before; and all of the file is listed, if its id cannot be taken for that of a node and
the numbers of the lines can be read back. -/
theorem descendants_of_append {t file : String} (hend : Text.endsWith t "\n" = true)
    (hfeature : ∃ i, Opens (strippedLines t) "Feature:" i) (u : String) :
    ∃ f g, Feature.read t file = some f ∧ Feature.read (t ++ u) file = some g ∧
      g.name = f.name ∧ g.line = f.line ∧ f.nodes <+: g.nodes ∧
      ∀ c : Catalog,
        (∀ id ids', ((c.readFile file t).readFile file (t ++ u)).descendants id = .ok ids' →
          ∃ ids, (c.readFile file t).descendants id = .ok ids ∧ ids <+: ids') ∧
        (NodeRef.IsPlain file → Fits (linesOf (t ++ u)).length →
          ∃ ids', ((c.readFile file t).readFile file (t ++ u)).descendants file = .ok ids' ∧
            ∀ id ∈ ids', ∃ below,
              ((c.readFile file t).readFile file (t ++ u)).descendants id = .ok below) := by
  cases hread : Feature.read t file with
  | none =>
    obtain ⟨i, hi⟩ := hfeature
    exact absurd hi (read_eq_none_iff.1 hread i)
  | some f =>
    obtain ⟨g, hread', hgrows⟩ := exists_grows_of_append hend hread u
    refine ⟨f, g, rfl, hread', hgrows.name, hgrows.line, hgrows.nodes_prefix, fun c => ⟨?_, ?_⟩⟩
    · exact kept_descendants (get?_readFile_self hread) (get?_readFile_self hread')
        (ordered_read hread) (ordered_read hread') hgrows
        fun other hother => (get?_readFile_of_ne _ hother).symm
    · intro hplain hfits
      have hget := get?_readFile_self (c := c.readFile file t) hread'
      have h := names_of_read hget hplain hread' hfits
      refine ⟨_, h.descendants_id (x := .feature file) .feature, ?_⟩
      intro id hid
      obtain ⟨x, hx, rfl⟩ := List.mem_map.1 hid
      exact ⟨_, h.descendants_id (mem_refs.1 hx)⟩

/-- A scenario that is added to a feature, and listed behind it. -/
theorem descendants_of_added_scenario :
    Text.endsWith "Feature:\n" "\n" = true ∧
      (∃ i, Opens (strippedLines "Feature:\n") "Feature:" i) ∧
      NodeRef.IsPlain "a.feature" ∧ Fits (linesOf ("Feature:\n" ++ "Scenario:")).length ∧
      ∃ ids ids', (empty.readFile "a.feature" "Feature:\n").descendants "a.feature" = .ok ids ∧
        ((empty.readFile "a.feature" "Feature:\n").readFile "a.feature"
          ("Feature:\n" ++ "Scenario:")).descendants "a.feature" = .ok ids' ∧ ids <+: ids' := by
  have hend : Text.endsWith "Feature:\n" "\n" = true := by decide
  have hfeature : ∃ i, Opens (strippedLines "Feature:\n") "Feature:" i := ⟨0, "", by decide⟩
  have hid : IsFileId "a.feature" := ⟨by decide, by decide, by decide⟩
  have hfits : Fits (linesOf ("Feature:\n" ++ "Scenario:")).length := ⟨by decide⟩
  obtain ⟨f, g, -, -, -, -, -, h⟩ := descendants_of_append hend hfeature "Scenario:"
  obtain ⟨hkept, hlisted⟩ := h empty
  obtain ⟨ids', hids', -⟩ := hlisted hid.isPlain hfits
  obtain ⟨ids, hids, hprefix⟩ := hkept _ ids' hids'
  exact ⟨hend, hfeature, hid.isPlain, hfits, ids, ids', hids, hids', hprefix⟩

/-- A scenario that is added to a file whose id ends where the mark of a rule could begin: its id is
not read back, and the file is not listed any more. -/
theorem not_kept_of_rule_end :
    Text.endsWith "Feature:\n" "\n" = true ∧
      (∃ i, Opens (strippedLines "Feature:\n") "Feature:" i) ∧
      (empty.readFile "/w/x:rule" "Feature:\n").descendants "/w/x:rule" = .ok ["/w/x:rule"] ∧
      ((empty.readFile "/w/x:rule" "Feature:\n").readFile "/w/x:rule"
        ("Feature:\n" ++ "Scenario:")).descendants "/w/x:rule" =
          .error (.malformed 10 "scenario:2") :=
  ⟨by decide, ⟨0, "", by decide⟩, rfl, rfl⟩

end FeatureRun.Catalog
