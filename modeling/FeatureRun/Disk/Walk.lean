import FeatureRun.Disk.Basic

/-!
# Walking file trees

Files below a directory in a fixed order: the files of a directory by name, then those of its
subdirectories, which are again taken by name.
-/
set_option autoImplicit false

namespace FeatureRun.FileTree

/-- Puts named things in the order of their names. -/
def byName {α : Type} (xs : List (String × α)) : List (String × α) :=
  xs.mergeSort fun a b => decide (a.1 ≤ b.1)

mutual

/-- The files whose names satisfy `keep`, below directories whose names satisfy `enter`. -/
def walk (enter keep : String → Bool) : FileTree → List (List String)
  | .file _ => []
  | .dir es =>
    (byName (files keep es)).map (fun e => [e.1]) ++
      (byName (subtrees enter keep es)).flatMap fun (n, paths) => paths.map (n :: ·)

/-- The files of one directory. -/
def files (keep : String → Bool) : List (String × FileTree) → List (String × Unit)
  | [] => []
  | (n, t) :: es => if !t.isDir && keep n then (n, ()) :: files keep es else files keep es

/-- What is found below each of the directories. -/
def subtrees (enter keep : String → Bool) :
    List (String × FileTree) → List (String × List (List String))
  | [] => []
  | (n, t) :: es =>
    if t.isDir && enter n then (n, walk enter keep t) :: subtrees enter keep es
    else subtrees enter keep es

end

mutual

/-- Every path below a directory, with a slash behind directories. -/
def listing (above : String) : FileTree → List String
  | .file _ => []
  | .dir es => listEntries above es

def listEntries (above : String) : List (String × FileTree) → List String
  | [] => []
  | (n, t) :: es =>
    let path := above ++ n
    (if t.isDir then [path ++ "/"] else [path]) ++ listing (path ++ "/") t ++ listEntries above es

end

/-- Every path below a directory in order. -/
def paths (t : FileTree) : List String :=
  (byName ((listing "" t).map fun p => (p, ()))).map Prod.fst

end FeatureRun.FileTree
