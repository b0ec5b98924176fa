import FeatureRun.Proofs.Disk
import FeatureRun.Proofs.Path
import FeatureRun.Workspace.Files

/-!
# What discovery finds

Discovery finds the regular files below the root of a workspace that have the name of a feature file
and stand in no excluded directory. Their ids are absolute paths in normal form.

* `IsFileBelow`: a regular file below a directory.
* `mem_featureFiles_iff`: which of them are found.
-/
set_option autoImplicit false

namespace FeatureRun

open Text

namespace Discovery

/-- A regular file below a directory, by its absolute path in normal form: the names of the
directories in between, and its own name. -/
structure IsFileBelow (disk : FileTree) (root : Path) (dirs : List String) (name path : String) :
    Prop where
  normal : Path.IsNormal path
  below : root.below? (.ofString path) = some (dirs ++ [name])
  isFile : disk.isFile? (.ofString path) = true

variable {disk : FileTree} {root : Path} {excluded dirs : List String} {name path : String}

/-- The last name on the way to a path is the name in its own directory. -/
theorem below?_dir (h : root.below? (.ofString path) = some (dirs ++ [name])) :
    Path.below? ⟨root.root, root.parts ++ dirs⟩ (.ofString path) = some [name] := by
  rw [Path.below?_eq_some_iff, Path.below?_eq_some_iff.1 h, List.append_assoc]

/-- The last name of a path in normal form ends like the path. -/
theorem isFeatureName_last (h : Path.IsNormal path)
    (hbelow : root.below? (.ofString path) = some (dirs ++ [name])) :
    isFeatureName path = isFeatureName name := by
  obtain ⟨front, hlist⟩ := h.exists_front (below?_dir hbelow)
  rw [Bool.eq_iff_iff, isFeatureName, isFeatureName, endsWith, endsWith,
    List.isSuffixOf_iff_suffix, List.isSuffixOf_iff_suffix, hlist]
  exact Path.suffix_last_iff (by decide)

/-- Normalizing a path leaves it the name of a feature file. -/
theorem isFeatureName_normalize {cwd : String} (h : isFeatureName path = true) :
    isFeatureName (Path.normalize cwd path) = true :=
  List.isSuffixOf_iff_suffix.2
    (Path.suffix_normalize (by decide) (by decide) (List.isSuffixOf_iff_suffix.1 h))

/-- A regular file below the root is found if it has the name of a feature file, and no directory on
the way to it is excluded. -/
theorem mem_featureFiles_iff (h : IsFileBelow disk root dirs name path) :
    Path.ofString path ∈ featureFiles disk root excluded ↔
      (∀ d ∈ dirs, d ∉ excluded) ∧ isFeatureName name = true := by
  have hpath := Path.below?_eq_some_iff.1 h.below
  have hdots : ".." ∉ root.parts ++ (dirs ++ [name]) := by
    intro hmem
    have hparts : ".." ∈ (Path.ofString path).parts := by rwa [hpath]
    exact (h.normal.isProper_of_mem hparts).noDots rfl
  have hfile := h.isFile
  rw [FileTree.isFile?_eq, hpath] at hfile
  obtain ⟨bytes, hbytes⟩ := Option.isSome_iff_exists.1 hfile
  obtain ⟨t, ht, hat⟩ := FileTree.exists_node? hdots (FileTree.node?_of_bytes? hbytes)
  rw [featureFiles, ht]
  constructor
  · intro hmem
    obtain ⟨names, hnames, he⟩ := List.mem_map.1 hmem
    rw [hpath] at he
    obtain rfl := List.append_cancel_left (Path.mk.inj he).2
    obtain ⟨ps, n, hsplit, hps, hn⟩ := FileTree.of_mem_walk hnames
    obtain ⟨rfl, hlast⟩ := List.append_inj' hsplit rfl
    obtain rfl := List.singleton_inj.1 hlast
    exact ⟨fun d hd => by simpa using hps d hd, hn⟩
  · rintro ⟨hdirs, hname⟩
    refine List.mem_map.2 ⟨dirs ++ [name], FileTree.mem_walk hat (fun d hd => ?_) hname, hpath.symm⟩
    simpa using hdirs d hd

end Discovery

namespace Workspace

variable {w : Workspace} {file : String}

/-- What is discovered has the name of a feature file. -/
theorem isFeatureName_of_mem_discovered (h : file ∈ w.discovered) :
    Discovery.isFeatureName file = true := by
  obtain ⟨p, hp, rfl⟩ := List.mem_map.1 h
  rw [Discovery.featureFiles] at hp
  split at hp
  · obtain ⟨names, hnames, rfl⟩ := List.mem_map.1 hp
    obtain ⟨dirs, name, rfl, -, hname⟩ := FileTree.of_mem_walk hnames
    refine Discovery.isFeatureName_normalize (List.isSuffixOf_iff_suffix.2 ?_)
    refine Path.suffix_toString (List.cons_ne_nil _ _) ?_
    rw [← List.append_assoc]
    exact (Path.suffix_join_iff (by decide)).2 (List.isSuffixOf_iff_suffix.1 hname)
  · exact absurd hp List.not_mem_nil

theorem fileId_eq (m : Machine) (h : Path.IsNormal file) : m.fileId file = file := by
  rw [Machine.fileId, Path.normalize_of_absolute _ h.absolute, h.normal]

/-- What is discovered below an absolute root has an absolute path in normal form for its id. -/
theorem isNormal_of_mem_discovered (hroot : w.root.isAbsolute = true) (h : file ∈ w.discovered) :
    Path.IsNormal file := by
  obtain ⟨p, hp, rfl⟩ := List.mem_map.1 h
  rw [Discovery.featureFiles] at hp
  split at hp
  · obtain ⟨names, -, rfl⟩ := List.mem_map.1 hp
    have habsolute := Path.startsWith_toString (w.root.parts ++ names) (of_decide_eq_true hroot)
    rw [Machine.fileId, Path.normalize_of_absolute _ habsolute]
    exact Path.isNormal_normalizeAbsolute habsolute
  · exact absurd hp List.not_mem_nil

end Workspace
end FeatureRun
