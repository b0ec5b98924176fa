import FeatureRun.Proofs.Disk
import FeatureRun.Proofs.OrderedMap
import FeatureRun.Proofs.Path
import Mathlib.Data.List.Nodup

/-!
# Trees as systems keep them

In the trees that a file system can hold the names of a directory are proper and differ from each
other. A walk over such a tree comes to no file twice, and the names on the way are proper.

* `Proper`: a tree that a file system can hold.
* `isProper_of_mem_walk`, `nodup_walk`: what a walk over it comes to.
-/
set_option autoImplicit false

namespace FeatureRun.FileTree

open FeatureRun.Path (IsProper)

/-- A tree that a file system can hold. -/
inductive Proper : FileTree → Prop where
  | file (bytes : Bytes) : Proper (.file bytes)
  | dir {es : List (String × FileTree)} (names : ∀ e ∈ es, IsProper e.1)
    (distinct : (es.map Prod.fst).Nodup) (entries : ∀ e ∈ es, Proper e.2) : Proper (.dir es)

variable {t u : FileTree} {enter keep : String → Bool} {names ps : List String} {p : Path}

/-- Where names differ, an entry is what its name stands for. -/
theorem named?_eq_some_iff {es : List (String × FileTree)} {n : String}
    (h : (es.map Prod.fst).Nodup) : named? n es = some u ↔ (n, u) ∈ es := by
  rw [named?_eq_find?, OrderedMap.find?_eq_some_iff h]

@[simp] theorem proper_file (bytes : Bytes) : (FileTree.file bytes).Proper := .file bytes

@[simp] theorem proper_dir {es : List (String × FileTree)} : (FileTree.dir es).Proper ↔
    (∀ e ∈ es, IsProper e.1) ∧ (es.map Prod.fst).Nodup ∧ ∀ e ∈ es, e.2.Proper :=
  ⟨fun | .dir names distinct entries => ⟨names, distinct, entries⟩,
    fun ⟨names, distinct, entries⟩ => .dir names distinct entries⟩

theorem Proper.named? {es : List (String × FileTree)} {n : String} (h : (FileTree.dir es).Proper)
    (hu : FileTree.named? n es = some u) : u.Proper :=
  (proper_dir.1 h).2.2 _ (mem_of_named? hu)

/-- Everything in a proper tree is proper. -/
theorem Proper.at? (h : t.Proper) (hat : t.at? ps = some u) : u.Proper := by
  induction ps generalizing t with
  | nil =>
    obtain rfl := Option.some.inj hat
    exact h
  | cons n ps ih =>
    cases t with
    | file bytes => nomatch hat
    | dir es =>
      rw [FileTree.at?, Option.bind_eq_some_iff] at hat
      obtain ⟨v, hv, hat⟩ := hat
      exact ih (h.named? hv) hat

theorem Proper.node? (h : t.Proper) (hnode : t.node? p = some u) : u.Proper := by
  rw [FileTree.node?] at hnode
  split at hnode
  · exact h.at? hnode
  · cases hnode

/-- All names on the way to a file are proper. -/
theorem isProper_of_mem_walk (h : t.Proper) (hmem : names ∈ t.walk enter keep) :
    ∀ n ∈ names, IsProper n := by
  induction names generalizing t with
  | nil => exact List.forall_mem_nil _
  | cons m rest ih =>
    cases h with
    | file bytes => nomatch hmem
    | dir hnames distinct entries =>
      rw [walk] at hmem
      rcases List.mem_append.1 hmem with hmem | hmem
      · obtain ⟨⟨n, _⟩, hn, he⟩ := List.mem_map.1 hmem
        obtain ⟨rfl, rfl⟩ := List.cons.inj he
        obtain ⟨-, u, hu⟩ := of_mem_files (mem_byName.1 hn)
        exact List.forall_mem_singleton.2 (hnames _ hu)
      · obtain ⟨⟨n, paths⟩, hpaths, hmem⟩ := List.mem_flatMap.1 hmem
        obtain ⟨names, hrest, he⟩ := List.mem_map.1 hmem
        obtain ⟨rfl, rfl⟩ := List.cons.inj he
        obtain ⟨-, u, hu, rfl⟩ := of_mem_subtrees (mem_byName.1 hpaths)
        exact List.forall_mem_cons.2 ⟨hnames _ hu, ih (entries _ hu) hrest⟩

theorem nodup_keys_byName {α : Type} {xs : List (String × α)} (h : (xs.map Prod.fst).Nodup) :
    ((byName xs).map Prod.fst).Nodup :=
  ((List.mergeSort_perm xs _).map Prod.fst).nodup_iff.2 h

/-- A walk comes to no file twice. -/
theorem nodup_walk (h : t.Proper) : (t.walk enter keep).Nodup := by
  induction h with
  | file bytes => exact List.nodup_nil
  | @dir es names distinct entries ih =>
    have hfiles : ((files keep es).map Prod.fst).Nodup := by
      rw [files_eq, List.map_map]
      exact distinct.sublist (List.filter_sublist.map _)
    have hsubtrees : ((subtrees enter keep es).map Prod.fst).Nodup := by
      rw [subtrees_eq, List.map_map]
      exact distinct.sublist (List.filter_sublist.map _)
    rw [walk, List.nodup_append]
    refine ⟨?files, ?subtrees, ?apart⟩
    case files =>
      have hsingle : ((byName (files keep es)).map Prod.fst).map (fun n => [n]) =
          (byName (files keep es)).map fun e => [e.1] := List.map_map
      rw [← hsingle]
      exact (nodup_keys_byName hfiles).map List.singleton_injective
    case subtrees =>
      refine List.nodup_flatMap.2 ⟨?_, ?_⟩
      · rintro ⟨n, paths⟩ hpaths
        obtain ⟨-, u, hu, rfl⟩ := of_mem_subtrees (mem_byName.1 hpaths)
        exact (ih _ hu).map (List.cons_injective)
      · -- paths through different directories differ in their first names
        refine (List.pairwise_map.1 (nodup_keys_byName hsubtrees)).imp ?_
        rintro ⟨m, paths⟩ ⟨n, paths'⟩ hne names hm hn
        obtain ⟨_, -, rfl⟩ := List.mem_map.1 hm
        obtain ⟨_, -, he⟩ := List.mem_map.1 hn
        exact hne (List.cons.inj he).1.symm
    case apart =>
      -- below a directory no path ends with the name of the directory
      rintro names hfile _ hbelow rfl
      obtain ⟨e, -, rfl⟩ := List.mem_map.1 hfile
      obtain ⟨⟨n, paths⟩, hpaths, hbelow⟩ := List.mem_flatMap.1 hbelow
      obtain ⟨rest, hrest, he⟩ := List.mem_map.1 hbelow
      obtain ⟨-, u, -, rfl⟩ := of_mem_subtrees (mem_byName.1 hpaths)
      obtain ⟨ps, m, rfl, -⟩ := of_mem_walk hrest
      simp at he

end FeatureRun.FileTree
