import FeatureRun.Proofs.Catalog.Tree
import FeatureRun.Proofs.Feature.Leaves
import FeatureRun.Proofs.Run.Spanned
import Mathlib.Data.List.Nodup

/-!
# The tests that a selection counts

The counts of an application are those of its results over the tests below the roots that it goes
through. The subtrees of the roots have no node in common, so each of these tests is counted once.
An application that is cancelled counts as one to the roots that it has gone through.

* `IsTest`, `testsBelow`: the tests of a catalog and those below a node.
* `nodup_testsBelow_roots`: each test is below one root at most.
* `Applies.counts_eq`: the counts are those of the results.
* `exists_applies_cut`: an application that is cancelled.
-/
set_option autoImplicit false

namespace FeatureRun

theorem Summary.add_assoc (a b c : Summary) : a + b + c = a + (b + c) := by
  change Summary.add (Summary.add a b) c = Summary.add a (Summary.add b c)
  simp [add, Int.add_assoc]

theorem Summary.empty_add (a : Summary) : Summary.empty + a = a := by
  change Summary.add _ _ = _
  simp [add, empty]

theorem Summary.add_empty (a : Summary) : a + Summary.empty = a := by
  change Summary.add _ _ = _
  simp [add, empty]

open Report (Entry)
open Feature

namespace Catalog

/-- A test of a feature of the catalog. -/
def IsTest (c : Catalog) (n : String) : Prop := ∃ file f, c.get? file = some f ∧ n ∈ f.leaves file

/-- The tests in the subtree of a node. -/
def testsBelow (c : Catalog) (root : String) : List String :=
  match NodeRef.read root, c.descendants root with
  | .ok ref, .ok below =>
    ((c.get? ref.file).map fun f => (f.leaves ref.file).filter below.contains).getD []
  | _, _ => []

variable {c : Catalog} {file file' n root : String} {f f' : Feature} {x x' y y' : NodeRef}
  {ids roots : List String}

/-- The tests of a feature are among those of the catalog. -/
theorem countTests_le (h : c.get? file = some f) : f.countTests ≤ c.countTests := by
  have hf : f ∈ c.features.values := OrderedMap.mem_values_iff.2 ⟨file, h⟩
  rw [countTests]
  generalize c.features.values = fs at hf ⊢
  induction fs with
  | nil => nomatch hf
  | cons g fs ih =>
    rw [List.foldr_cons]
    rcases List.mem_cons.1 hf with rfl | hf
    · exact Nat.le_add_right _ _
    · exact Nat.le_add_left_of_le (ih hf)

theorem Holds.testsBelow_id (h : c.Holds file f) (hx : f.Refers file x) :
    c.testsBelow x.id = (f.leaves file).filter ((f.below x).map NodeRef.id).contains := by
  rw [testsBelow, h.read_id hx, h.descendants_id hx]
  simp only [hx.file_eq, h.get, Option.map_some, Option.getD_some]

/-- The tests in a subtree are nodes of it. -/
theorem Holds.mem_testsBelow (h : c.Holds file f) (hx : f.Refers file x) :
    n ∈ c.testsBelow x.id ↔ ∃ y ∈ f.below x, y ∈ f.leafRefs file ∧ y.id = n := by
  rw [h.testsBelow_id hx, leaves_eq, List.mem_filter, List.contains_iff_mem, List.mem_map,
    List.mem_map]
  constructor
  · rintro ⟨⟨y, hy, rfl⟩, z, hz, he⟩
    obtain rfl := h.id_inj (hx.below h.ordered hz) (refers_of_mem_leafRefs hy) he
    exact ⟨z, hz, hy, rfl⟩
  · rintro ⟨y, hbelow, hleaf, rfl⟩
    exact ⟨⟨y, hleaf, rfl⟩, y, hbelow, rfl⟩

theorem mem_testsBelow_iff (hc : c.Parsed) (hroot : c.IsNode root) :
    n ∈ c.testsBelow root ↔ c.IsTest n ∧ c.Within n root := by
  obtain ⟨file, f, x, h, hx, rfl⟩ := (isNode_iff hc).1 hroot
  rw [h.mem_testsBelow hx, h.within_iff hx]
  constructor
  · rintro ⟨y, hbelow, hleaf, rfl⟩
    exact ⟨⟨file, f, h.get, leaves_eq f file ▸ List.mem_map_of_mem hleaf⟩, y, hbelow, rfl⟩
  · rintro ⟨⟨file', f', hget, hleaf⟩, y, hbelow, rfl⟩
    rw [leaves_eq] at hleaf
    obtain ⟨z, hz, he⟩ := List.mem_map.1 hleaf
    obtain ⟨rfl, rfl, rfl⟩ := (hc.holds hget).unique h (refers_of_mem_leafRefs hz)
      (hx.below h.ordered hbelow) he
    exact ⟨z, hbelow, hz, rfl⟩

theorem Holds.nodup_testsBelow (h : c.Holds file f) (hx : f.Refers file x) :
    (c.testsBelow x.id).Nodup := by
  rw [h.testsBelow_id hx, leaves_eq]
  exact (h.formTree_refs.nodup.sublist ((leafRefs_sublist f file).map _)).filter _

/-- Each test is in the subtree of one root at most, and stands there once. -/
theorem nodup_testsBelow_roots (hnodup : roots.Nodup)
    (hroots : ∀ id ∈ roots, ∃ file f x, c.IsRoot ids file f x ∧ x.id = id) :
    (roots.flatMap c.testsBelow).Nodup := by
  refine List.nodup_flatMap.2 ⟨fun id hid => ?_, hnodup.imp_of_mem fun {a b} ha hb hne => ?_⟩
  · obtain ⟨file, f, x, hroot, rfl⟩ := hroots id hid
    exact hroot.holds.nodup_testsBelow hroot.refers
  · obtain ⟨file, f, x, hroot, rfl⟩ := hroots a ha
    obtain ⟨file', f', x', hroot', rfl⟩ := hroots b hb
    intro n hn hn'
    obtain ⟨y, hy, -, hid⟩ := (hroot.holds.mem_testsBelow hroot.refers).1 hn
    obtain ⟨y', hy', -, rfl⟩ := (hroot'.holds.mem_testsBelow hroot'.refers).1 hn'
    exact hne (congrArg _ (hroot.eq_of_common hroot' hy hy' hid))

end Catalog

namespace Run

open Catalog

variable {report : List Entry} {ids : Option (List String)} {run : Option Int} {w w' : Workspace}
  {roots : List String} {applied : List Applied} {file : String} {f : Feature} {x : NodeRef}

/-! ## The counts -/

theorem counts_of_applyTo {c : Catalog} {root : Path} {a : Applied} (h : c.Holds file f)
    (hx : f.Refers file x) (ha : applyTo c root report x.id = .ok (some a)) :
    a.counts = countLeaves (verdicts report file f) (c.testsBelow x.id) := by
  obtain rfl := hx.file_eq
  obtain ⟨y, g, below, above, hread, hget, hbelow, -, rfl⟩ := applyTo_eq_some_iff.1 ha
  cases (h.read_id hx).symm.trans hread
  cases h.get.symm.trans hget
  cases (h.descendants_id hx).symm.trans hbelow
  rw [h.testsBelow_id hx]
  rfl

/-- The store has room for the counts if it has for the number of tests. -/
theorem countsFit_tally_iff {ss : List Status} :
    CountsFit (tally ss) ↔ Store.fits ss.length = true := by
  have hpassed := List.countP_le_length (l := ss) (p := (· = .passed))
  have hfailed := List.countP_le_length (l := ss) (p := (· = .failed))
  have hnotRun := List.countP_le_length (l := ss) (p := notRun)
  simp only [CountsFit, tally, Store.fits, List.all_cons, List.all_nil, Bool.and_eq_true,
    decide_eq_true_eq, and_true] at *
  omega

theorem countLeaves_append (results : Results) (as bs : List String) :
    countLeaves results (as ++ bs) = countLeaves results as + countLeaves results bs := by
  rw [countLeaves_eq, countLeaves_eq, countLeaves_eq, List.map_append, tally_append]

theorem countLeaves_congr {results results' : Results} {tests : List String}
    (h : ∀ n ∈ tests, results.get? n = results'.get? n) :
    countLeaves results tests = countLeaves results' tests := by
  rw [countLeaves_eq, countLeaves_eq]
  exact congrArg tally (List.map_congr_left fun n hn => by rw [statusIn, statusIn, h n hn])

theorem foldl_counts {β : Type} {say : String → β} {heard : Applied → β}
    {tests : String → List String} {results : Results} (hsaid : roots.map say = applied.map heard)
    (hcounts : ∀ id ∈ roots, ∀ a, say id = heard a → a.counts = countLeaves results (tests id))
    (counts : Summary) : applied.foldl (fun sum a => sum + a.counts) counts =
      counts + countLeaves results (roots.flatMap tests) := by
  induction roots generalizing applied counts with
  | nil =>
    obtain rfl := List.map_eq_nil_iff.1 hsaid.symm
    exact counts.add_empty.symm
  | cons id roots ih =>
    cases applied with
    | nil => nomatch hsaid
    | cons a applied =>
      obtain ⟨ha, hsaid⟩ := List.cons.inj hsaid
      rw [List.foldl_cons, List.flatMap_cons, countLeaves_append, ← Summary.add_assoc,
        ← hcounts id List.mem_cons_self a ha]
      exact ih hsaid (fun n hn => hcounts n (List.mem_cons_of_mem _ hn)) _

/-- A test has the status in the results that it is counted with. -/
theorem Applies.verdict_of_mem_testsBelow (h : Applies report ids run w roots applied w')
    (hroot : w.catalog.IsRoot (w.catalog.chosen ids) file f x) {n : String}
    (hn : n ∈ w.catalog.testsBelow x.id) : (verdicts report file f).get? n =
      (OrderedMap.ofList (applied.flatMap fun a => a.picked.entries)).get? n := by
  obtain ⟨y, hy, hleaf, rfl⟩ := (hroot.holds.mem_testsBelow hroot.refers).1 hn
  have hyref := hroot.refers.below hroot.holds.ordered hy
  obtain ⟨r, hr, -⟩ := exists_verdict report hyref
  rw [hr, h.get?_results.2 ⟨file, f, x, hroot, y, hy, rfl, ?_⟩]
  rw [stated_eq_verdict (ne_feature_of_mem_leafRefs hleaf), hyref.file_eq, hr]

/-- The counts of an application are those of its results over the tests below the roots. -/
theorem Applies.counts_eq (h : Applies report ids run w roots applied w') :
    applied.foldl (fun sum a => sum + a.counts) .empty =
      countLeaves (.ofList (applied.flatMap fun a => a.picked.entries))
        (roots.flatMap w.catalog.testsBelow) := by
  rw [foldl_counts h.said, Summary.empty_add]
  intro id hid a ha
  obtain ⟨file, f, x, hroot, rfl⟩ := (h.isRoot id).1 hid
  rw [counts_of_applyTo hroot.holds hroot.refers ha]
  exact countLeaves_congr fun n hn => h.verdict_of_mem_testsBelow hroot hn

/-! ## Applications that are cancelled -/

theorem applyAll_of_applyReport {found : Results × Summary}
    (hselect : w.catalog.select ids = .ok roots)
    (h : applyReport report ids none run w = (.ok found, w')) :
    applyAllWith (record run) report .empty .empty roots w = (.ok found, w') := by
  rcases hall : applyAllWith (record run) report .empty .empty roots w with ⟨e | found', w''⟩
  · have hall' : applyAllWith (record run) report .empty .empty
        (roots.take ((none : Option Nat).getD roots.length)) w = (.error e, w'') := by
      rwa [Option.getD_none, List.take_length]
    cases (applyReportWith_error hselect hall').symm.trans h
  · exact (applyReport_of_select hselect hall).symm.trans h

/-- An application that is cancelled after some of the roots is one to these roots, except for what
is noted. -/
theorem exists_applies_cut (report : List Entry) (ids : Option (List String))
    (cancelAfter : Option Nat) (hc : w.catalog.Parsed)
    (hids : ∀ id ∈ ids.getD [], w.catalog.IsNode id) (hrun : run.all Store.fits = true)
    (hselect : w.catalog.select ids = .ok roots) :
    ∃ applied w₁ journal,
      Applies report (some (roots.take (cancelAfter.getD roots.length))) run w
        (roots.take (cancelAfter.getD roots.length)) applied w₁ ∧
      applyReport report ids cancelAfter run w =
        (.ok (.ofList (applied.flatMap fun a => a.picked.entries),
          applied.foldl (fun sum a => sum + a.counts) .empty), { w₁ with journal := journal }) := by
  have hpart : (roots.take (cancelAfter.getD roots.length)).Sublist roots := List.take_sublist _ _
  have hcut := select_of_sublist hselect hpart
  have hnodes : ∀ id ∈ (some (roots.take (cancelAfter.getD roots.length))).getD [],
      w.catalog.IsNode id := fun id hid => isNode_of_select hc hids hselect id (hpart.subset hid)
  obtain ⟨roots', applied, w₁, happlies⟩ := exists_applies report _ hc hnodes hrun
  cases hcut.symm.trans happlies.selects
  have hall := applyAll_of_applyReport hcut happlies.runs
  obtain ⟨journal, hrest⟩ := applyReportWith_ok hselect hall
  exact ⟨applied, w₁, journal, happlies, hrest⟩

end Run
end FeatureRun
