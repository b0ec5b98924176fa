import FeatureRun.Catalog.Basic
import FeatureRun.Disk.Basic
import FeatureRun.Feature.Notes

/-!
# Keeping the catalog up to date

A file is read anew as a whole. If it cannot be read or holds no feature, the catalog has nothing
under its id afterwards.
-/
set_option autoImplicit false

namespace FeatureRun.Catalog

/-- The catalog after reading a file that has this text or none. -/
def update (c : Catalog) (file : String) (text : Except TextFault String) : Catalog :=
  match text with
  | .ok t => c.readFile file t
  | .error _ => c.removeFile file

/-- The number of tests in a file. -/
def testsIn (c : Catalog) (file : String) : Nat := ((c.get? file).map Feature.countTests).getD 0

/-- What reading a file notes. -/
def updateNotes (c : Catalog) (file : String) (text : Except TextFault String) : List Note :=
  match text with
  | .error e => [⟨.error, "Cannot read " ++ file ++ ": " ++ e.message⟩]
  | .ok t =>
    Feature.readNotes t file ++
      match Feature.read t file with
      | none => [⟨.debug, "No feature found in " ++ file⟩]
      | some f =>
        let verb := if c.features.contains file then "Updating" else "Adding"
        [⟨.debug, verb ++ " feature \"" ++ f.name ++ "\" (" ++ toString f.countTests ++
          " tests) from " ++ file⟩]

/-- The text of the file with an id. -/
def textOf (disk : FileTree) (file : String) : Except TextFault String :=
  disk.readText (Path.ofString file) file

/-- Reads files of the disk one after another. -/
def updateAll (c : Catalog) (disk : FileTree) (files : List String) : Catalog :=
  files.foldl (fun c file => c.update file (textOf disk file)) c

def updateAllNotes (c : Catalog) (disk : FileTree) : List String → List Note
  | [] => []
  | file :: files =>
    let text := textOf disk file
    c.updateNotes file text ++ (c.update file text).updateAllNotes disk files

end FeatureRun.Catalog
