import FeatureRun.Console.Commands
import FeatureRun.Proofs.Catalog.Node
import FeatureRun.Proofs.Feature.Tree
import FeatureRun.Proofs.Outcome.RollUp

/-!
# One way over the nodes of a feature

Looking down from a file's id, rolling outcomes up, collecting the tests and printing the tree each
go over the nodes of a feature by themselves. For a feature that was read from a file they meet the
same nodes, those of its entries.

* `Traversed`: what it means that all go the same way.
* `traversed_of_read`: they do.
-/
set_option autoImplicit false

namespace FeatureRun.Catalog

open Feature Console

/-- All traversals of a feature go over its entries. -/
structure Traversed (c : Catalog) (file : String) (f : Feature) : Prop where
  /-- Looking down from the file's id lists the ids of the entries in their order, -/
  listed : c.descendants file = .ok ((f.entries file).map fun e => e.ref.id)
  /-- each the id of its own node, under as many others as it is deep. -/
  named : ∀ e ∈ f.entries file, c.resolve e.ref.id = .ok (some e.node) ∧
    ∃ above, c.ancestors e.ref.id = .ok above ∧ above.length = e.depth
  /-- A stretch is a feature or a rule, or a scenario with everything below it. -/
  stretches : ∀ b ∈ f.stretches file, (b.rows = [] ∧ ∀ s, b.head.node ≠ .scenario s) ∨
    ∃ s, b.head.node = .scenario s ∧
      c.descendants b.head.ref.id = .ok (b.entries.map fun e => e.ref.id)
  /-- After any run there are results for exactly these ids. -/
  results : ∀ os id, id ∈ (RollUp.ofOutcomes file f os).keys ↔
    id ∈ (f.entries file).map fun e => e.ref.id
  /-- The tests are the ids of rows and of scenarios without rows. -/
  tests : f.leaves file = ((f.entries file).filter fun e => e.node.isTest).map fun e => e.ref.id
  count : f.countTests = (f.leaves file).length
  /-- The tree is printed with one line for each entry, -/
  plain : treeText none f = Text.join "\n" ((f.entries file).map (Listed.line ""))
  lines : Text.lines (treeText none f) = (f.entries file).map (Listed.line "")
  /-- and with results by the same lines behind marks, with one more behind the rows of a scenario
  that has a failure. -/
  marked : ∀ rs, treeText (some rs) f =
    Text.join "\n" ((f.stretches file).flatMap (Stretch.markedLines rs))

theorem Holds.listed {c : Catalog} {file : String} {f : Feature} (h : c.Holds file f) :
    c.descendants file = .ok ((f.entries file).map fun e => e.ref.id) := by
  have hrefs := h.descendants_id (x := .feature file) .feature
  rw [below, ← refs_entries, List.map_map] at hrefs
  exact hrefs

/-- Looking down, rolling up, collecting the tests and printing meet the same nodes of a feature
that was read. -/
theorem traversed_of_read {c : Catalog} {file text : String} {f : Feature}
    (hget : c.get? file = some f) (hread : Feature.read text file = some f)
    (hid : IsFileId file) (hfits : Fits (linesOf text).length) : c.Traversed file f := by
  have h := holds_of_read hget hid hread hfits
  exact {
    listed := h.listed
    named := fun e he => by
      have hdenotes := denotes_of_mem_entries he
      refine ⟨h.resolve_of_denotes hdenotes, _, h.ancestors_id hdenotes.refers, ?_⟩
      rw [List.length_map, length_above_of_mem_entries h.ordered he]
    stretches := fun b hb => by
      obtain rfl | ⟨r, hr, rfl⟩ | ⟨depth, s, hs, rfl⟩ := mem_stretches hb
      · exact .inl ⟨rfl, nofun⟩
      · exact .inl ⟨rfl, nofun⟩
      · refine .inr ⟨s, rfl, (h.descendants_id (.scenario hs.mem_scenarios)).trans ?_⟩
        rw [below_scenario h.ordered hs.mem_scenarios, ← refs_scenarioStretch file depth,
          List.map_map]
        rfl
    results := fun os id => by
      have hids : (f.entries file).map (fun e => e.ref.id) = (f.refs file).map NodeRef.id := by
        rw [← refs_entries, List.map_map]
        rfl
      rw [RollUp.ofOutcomes, RollUp.mem_keys_results, hids, List.mem_map]
      exact exists_congr fun x => and_congr_left' mem_refs.symm
    tests := by rw [leaves_eq, leafRefs_eq_filter, List.map_map]; rfl
    count := (length_leaves file f).symm
    plain := by rw [treeText, h.path, treeLines_none]
    lines := by rw [treeText, h.path, lines_treeLines (described_read hread)]
    marked := fun rs => by rw [treeText, h.path, treeLines_some] }

/-- A failing row of an outline in a rule, behind a scenario that was not run. -/
theorem traversed_of_failing_outline : ∃ (c : Catalog) (f : Feature) (text : String) (rs : Results),
    c.get? "a.feature" = some f ∧ Feature.read text "a.feature" = some f ∧
    IsFileId "a.feature" ∧ Fits (linesOf text).length ∧ c.Traversed "a.feature" f ∧
    f.leaves "a.feature" = ["a.feature:scenario:2", "a.feature:scenario:5:example:8"] ∧
    (f.stretches "a.feature").flatMap (Stretch.markedLines rs) =
      ["✗ Feature: A (line 1)", "  · Scenario: B (line 2)", "  ✗ Rule: R (line 4)",
        "    ✗ Scenario Outline: C (line 5)", "      ✗ Example: | 1 | (line 8)",
        "        ↳ boom (line 6)"] := by
  let text := "Feature: A\nScenario: B\n\nRule: R\nScenario Outline: C\nExamples:\n| x |\n| 1 |"
  let outline : Scenario := ⟨"C", 5, true, [⟨8, "| 1 |"⟩]⟩
  let f : Feature := ⟨"A", 1, "a.feature",
    [.scenario ⟨"B", 2, false, []⟩, .rule ⟨"R", 4, [outline]⟩]⟩
  let failures : List Failure := [⟨"boom", "boom", 6⟩]
  let rs : Results := .ofList (["a.feature:scenario:5:example:8", "a.feature:scenario:5",
    "a.feature:rule:4", "a.feature"].map fun id => (id, ⟨id, .failed, failures⟩))
  have hread : Feature.read text "a.feature" = some f := by decide
  have hget : (Catalog.empty.readFile "a.feature" text).get? "a.feature" = some f := by decide
  have hid : IsFileId "a.feature" := ⟨by decide, by decide, by decide⟩
  have hfits : Fits (linesOf text).length := ⟨by decide⟩
  exact ⟨_, f, text, rs, hget, hread, hid, hfits, traversed_of_read hget hread hid hfits,
    by decide, by decide⟩

end FeatureRun.Catalog
