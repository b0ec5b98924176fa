import FeatureRun.Proofs.Disk.Proper
import FeatureRun.Proofs.Feature.Grammar
import FeatureRun.Proofs.Workspace.Files

/-!
# What is discovered

On a disk whose names are proper, discovery finds every feature file below the root and outside the
excluded directories once, and the catalog then has the features in their texts and no others.

* `IsFeatureText`: a feature file of a workspace, and its text.
* `nodup_discovered`: no file is found twice.
* `get?_refresh_eq_some_iff`: what is in the catalog after discovery.
-/
set_option autoImplicit false

namespace FeatureRun.Workspace

open Discovery (IsFileBelow)
open Feature (Opens strippedLines)

variable {w : Workspace} {file : String} {f : Feature}

/-- A feature file of a workspace, and its text: a regular file below the root, with the name of a
feature file and in no excluded directory, that is UTF-8 and has a `Feature:` line. -/
structure IsFeatureText (w : Workspace) (file text : String) : Prop where
  place : ∃ dirs name, IsFileBelow w.disk w.root dirs name file ∧
    (∀ d ∈ dirs, d ∉ w.settings.excludeDirs) ∧ ".feature".toList <:+ name.toList
  content : ∃ bytes s, w.disk.bytes? (.ofString file) = some bytes ∧
    Text.Utf8.decode bytes = .ok s ∧ text = String.ofList (Text.unifyBreaks s.toList)
  feature : ∃ i, Opens (strippedLines text) "Feature:" i

section Discovered

variable (hdisk : w.disk.Proper) (hroot : w.root.IsResolved)

include hdisk hroot

/-- What discovery finds on a proper disk is below the root, and in no excluded directory. -/
theorem of_mem_featureFiles {p : Path}
    (hp : p ∈ Discovery.featureFiles w.disk w.root w.settings.excludeDirs) :
    (∀ n ∈ p.parts, Path.IsProper n) ∧ w.fileId p.toString = p.toString ∧
      Path.IsNormal p.toString ∧ ∃ dirs name, w.root.below? p = some (dirs ++ [name]) ∧
        (∀ d ∈ dirs, d ∉ w.settings.excludeDirs) ∧ Discovery.isFeatureName name = true := by
  rw [Discovery.featureFiles] at hp
  split at hp
  · rename_i t ht
    obtain ⟨names, hnames, rfl⟩ := List.mem_map.1 hp
    obtain ⟨dirs, name, rfl, hdirs, hname⟩ := FileTree.of_mem_walk hnames
    have hproper : ∀ n ∈ w.root.parts ++ (dirs ++ [name]), Path.IsProper n :=
      List.forall_mem_append.2
        ⟨hroot.proper, FileTree.isProper_of_mem_walk (hdisk.node? ht) hnames⟩
    have habsolute : w.root.root ≠ .none := of_decide_eq_true hroot.absolute
    have hnormal : Path.IsNormal
        (Path.mk w.root.root (w.root.parts ++ (dirs ++ [name]))).toString :=
      Path.toString_of_root habsolute _ ▸ Path.isNormal_text habsolute hproper
    refine ⟨hproper, fileId_eq _ hnormal, hnormal, dirs, name, Path.below?_eq_some_iff.2 rfl,
      fun d hd => ?_, hname⟩
    simpa using hdirs d hd
  · exact absurd hp List.not_mem_nil

/-- No file is discovered twice. -/
theorem nodup_discovered : w.discovered.Nodup := by
  have hfiles : (Discovery.featureFiles w.disk w.root w.settings.excludeDirs).Nodup := by
    rw [Discovery.featureFiles]
    split
    · rename_i t ht
      refine (FileTree.nodup_walk (hdisk.node? ht)).map fun a b he => ?_
      exact List.append_cancel_left (Path.mk.inj he).2
    · exact List.nodup_nil
  refine List.Nodup.map_on (fun p hp q hq he => ?_) hfiles
  obtain ⟨hp, hpid, -⟩ := of_mem_featureFiles hdisk hroot hp
  obtain ⟨hq, hqid, -⟩ := of_mem_featureFiles hdisk hroot hq
  rw [hpid, hqid] at he
  rw [← Path.ofString_toString hp, he, Path.ofString_toString hq]

theorem exists_place_of_mem_discovered (hfile : file ∈ w.discovered) : Path.IsNormal file ∧
    ∃ dirs name, w.root.below? (.ofString file) = some (dirs ++ [name]) ∧
      (∀ d ∈ dirs, d ∉ w.settings.excludeDirs) ∧ Discovery.isFeatureName name = true := by
  obtain ⟨p, hp, rfl⟩ := List.mem_map.1 hfile
  obtain ⟨hproper, hid, hnormal, hplace⟩ := of_mem_featureFiles hdisk hroot hp
  rw [hid, Path.ofString_toString hproper]
  exact ⟨hnormal, hplace⟩

/-- After discovery the catalog has the features in the texts of the feature files. -/
theorem get?_refresh_eq_some_iff : (refresh w).2.catalog.get? file = some f ↔
    ∃ text, IsFeatureText w file text ∧ Feature.read text file = some f := by
  rw [get?_refresh_eq]
  constructor
  · intro hget
    split at hget
    · rename_i hfile
      obtain ⟨text, hcontent, hread⟩ := Catalog.onDisk_eq_some_iff.1 hget
      obtain ⟨hnormal, dirs, name, hbelow, hdirs, hname⟩ :=
        exists_place_of_mem_discovered hdisk hroot hfile
      obtain ⟨i, htitle, -⟩ := Feature.titled_of_read hread
      have hisFile : w.disk.isFile? (.ofString file) = true := by
        obtain ⟨bytes, -, hbytes, -⟩ := hcontent
        rw [FileTree.isFile?_eq, hbytes]
        rfl
      refine ⟨text, ⟨⟨dirs, name, ⟨hnormal, hbelow, hisFile⟩, hdirs, ?_⟩, hcontent, i, ?_⟩, hread⟩
      · exact List.isSuffixOf_iff_suffix.1 hname
      · exact Feature.opens_iff_titled.2 ⟨_, htitle⟩
    · nomatch hget
  · rintro ⟨text, ⟨⟨dirs, name, hbelow, hdirs, hname⟩, hcontent, -⟩, hread⟩
    have hfound := (Discovery.mem_featureFiles_iff hbelow).2
      ⟨hdirs, List.isSuffixOf_iff_suffix.2 hname⟩
    have hfile : file ∈ w.discovered := List.mem_map.2 ⟨_, hfound, by
      rw [hbelow.normal.toString_ofString, fileId_eq _ hbelow.normal]⟩
    rw [if_pos hfile]
    exact Catalog.onDisk_eq_some_iff.2 ⟨text, hcontent, hread⟩

end Discovered

end FeatureRun.Workspace
