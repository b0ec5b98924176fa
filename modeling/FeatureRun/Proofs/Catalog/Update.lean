import FeatureRun.Catalog.Update
import FeatureRun.Proofs.Disk
import FeatureRun.Proofs.Except
import FeatureRun.Proofs.NodeId

/-!
# What reading files anew comes to

Reading a file gives the catalog the feature in its text and takes nothing else from it. That
feature depends on nothing but the content of the file.
-/
set_option autoImplicit false

namespace FeatureRun.Catalog

variable {c : Catalog} {disk disk' : FileTree} {file a : String} {files : List String}

/-- The feature of a file that has this text or none. -/
def parsed? (file : String) (text : Except TextFault String) : Option Feature :=
  text.toOption.bind fun t => Feature.read t file

/-- The feature that reading a file of the disk gives: none if there is no such file, or it cannot
be decoded, or its text holds no feature. -/
def onDisk (disk : FileTree) (file : String) : Option Feature := parsed? file (textOf disk file)

theorem get?_removeFile (c : Catalog) (file a : String) :
    (c.removeFile file).get? a = if a = file then none else c.get? a :=
  OrderedMap.get?_erase c.features file a

theorem get?_update (c : Catalog) (file a : String) (text : Except TextFault String) :
    (c.update file text).get? a = if a = file then parsed? file text else c.get? a := by
  cases text with
  | error e => exact get?_removeFile c file a
  | ok t =>
    rw [update, readFile, parsed?, Except.toOption, Option.bind_some]
    cases Feature.read t file with
    | none => exact get?_removeFile c file a
    | some f => exact OrderedMap.get?_insert c.features file a f

/-- Files that are read have what is on the disk afterwards, and the others what they had. -/
theorem get?_updateAll (c : Catalog) (disk : FileTree) (files : List String) (a : String) :
    (c.updateAll disk files).get? a = if a ∈ files then onDisk disk a else c.get? a := by
  induction files generalizing c with
  | nil => simp [updateAll]
  | cons file files ih =>
    have hstep : c.updateAll disk (file :: files) =
        (c.update file (textOf disk file)).updateAll disk files := rfl
    rw [hstep, ih, get?_update]
    by_cases hmem : a ∈ files
    · simp [hmem]
    · by_cases ha : a = file
      · simp [ha, onDisk]
      · simp [ha, hmem]

/-- A file with the same content gives the same feature. -/
theorem onDisk_congr (h : disk.bytes? (.ofString file) = disk'.bytes? (.ofString file)) :
    onDisk disk file = onDisk disk' file := by
  rw [onDisk, onDisk, parsed?, parsed?, textOf, textOf, FileTree.toOption_readText,
    FileTree.toOption_readText, h]

theorem onDisk_eq_none (h : disk.bytes? (.ofString file) = none) : onDisk disk file = none := by
  rw [onDisk, parsed?, textOf, FileTree.toOption_readText, h, Option.bind_none, Option.bind_none]

/-- It is the feature in the decoded content of the file. -/
theorem onDisk_eq_some_iff {f : Feature} : onDisk disk file = some f ↔
    ∃ text, (∃ bytes s, disk.bytes? (.ofString file) = some bytes ∧
      Text.Utf8.decode bytes = .ok s ∧ text = String.ofList (Text.unifyBreaks s.toList)) ∧
      Feature.read text file = some f := by
  rw [onDisk, parsed?, textOf, FileTree.toOption_readText,
    Option.bind_eq_some_iff]
  refine exists_congr fun text => and_congr_left' ?_
  rw [Option.bind_eq_some_iff]
  refine exists_congr fun bytes => ?_
  rw [Option.map_eq_some_iff]
  constructor
  · rintro ⟨hbytes, s, hs, rfl⟩
    exact ⟨s, hbytes, toOption_eq_some_iff.1 hs, rfl⟩
  · rintro ⟨s, hbytes, hs, rfl⟩
    exact ⟨hbytes, s, toOption_eq_some_iff.2 hs, rfl⟩

/-! ## Features that were read -/

/-- Every feature of the catalog was read from a text under the id that it has there. -/
def FromTexts (c : Catalog) : Prop :=
  ∀ file f, c.get? file = some f → ∃ text, Feature.read text file = some f

/-- Every feature of the catalog is under the id of a feature file. -/
def FileIds (c : Catalog) : Prop := ∀ file f, c.get? file = some f → IsFileId file

theorem fromTexts_empty : empty.FromTexts := fun _ _ h => nomatch h

theorem fileIds_empty : empty.FileIds := fun _ _ h => nomatch h

theorem exists_text_of_parsed? {f : Feature} {text : Except TextFault String}
    (h : parsed? file text = some f) : ∃ t, Feature.read t file = some f := by
  obtain ⟨t, -, ht⟩ := Option.bind_eq_some_iff.1 h
  exact ⟨t, ht⟩

theorem FromTexts.removeFile (hc : c.FromTexts) (file : String) :
    (c.removeFile file).FromTexts := by
  intro a f h
  rw [get?_removeFile] at h
  split at h
  · nomatch h
  · exact hc a f h

theorem FromTexts.update (hc : c.FromTexts) (file : String) (text : Except TextFault String) :
    (c.update file text).FromTexts := by
  intro a f h
  rw [get?_update] at h
  split at h
  · rename_i ha
    exact ha ▸ exists_text_of_parsed? h
  · exact hc a f h

theorem FromTexts.updateAll (hc : c.FromTexts) (disk : FileTree) (files : List String) :
    (c.updateAll disk files).FromTexts := by
  intro a f h
  rw [get?_updateAll] at h
  split at h
  · exact exists_text_of_parsed? h
  · exact hc a f h

theorem FileIds.update (hc : c.FileIds) (hid : IsFileId file) (text : Except TextFault String) :
    (c.update file text).FileIds := by
  intro a f h
  rw [get?_update] at h
  split at h
  · rename_i ha
    exact ha ▸ hid
  · exact hc a f h

end FeatureRun.Catalog
