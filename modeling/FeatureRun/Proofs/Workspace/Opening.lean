import FeatureRun.Proofs.Path
import FeatureRun.Proofs.Workspace.Files
import FeatureRun.Workspace.Opening

/-!
# The root of an opened session

Opening a session makes a directory for its state in the root of the workspace and a file in that
directory. So the root of an opened session is never a regular file.
-/
set_option autoImplicit false

namespace FeatureRun.Workspace

variable {w w' : Workspace} {m : Machine}

theorem loadSettings_root (h : loadSettings w = (.ok (), w')) : w'.root = w.root := by
  rw [loadSettings, Action.bind_ok Action.get_apply] at h
  cases hsettings : settingsAt w.surroundings.load w.disk w.root with
  | error e =>
    rw [hsettings] at h
    nomatch h
  | ok s =>
    rw [hsettings, Action.bind_ok (Action.ofExcept_ok id s)] at h
    rw [← (Prod.mk.inj h).2]

theorem makeDirs_root (p : Path) (w : Workspace) : (makeDirs p w).2.root = w.root := rfl

theorem storeFile_eq (root : Path) :
    storeFile root = ⟨root.root, root.parts ++ [".cuke"] ++ ["results.db"]⟩ := rfl

/-- The root is a directory if the file of the store is there, -/
theorem isFile?_root_of_exists {disk : FileTree} {root : Path} (hdots : ".." ∉ root.parts)
    (h : disk.exists? (storeFile root) = true) : disk.isFile? root = false := by
  obtain ⟨v, hv⟩ := Option.isSome_iff_exists.1 h
  rw [storeFile_eq, List.append_assoc] at hv
  refine FileTree.isFile?_of_node? ?_ hv
  simpa using hdots

/-- and also if it has been written. -/
theorem isFile?_root_of_write {disk disk' : FileTree} {root : Path} {content : Bytes}
    (hdots : ".." ∉ root.parts) (h : disk.write (storeFile root) content = .ok disk') :
    disk'.isFile? root = false := by
  have hstate : ".." ∉ root.parts ++ [".cuke"] := by simpa using hdots
  rw [storeFile_eq] at h
  obtain ⟨⟨es, hes⟩, rfl⟩ := FileTree.exists_of_write_ok hstate h
  rw [FileTree.at?_append, Option.bind_eq_some_iff] at hes
  obtain ⟨t, ht, hes⟩ := hes
  have hput := FileTree.at?_put [".cuke", "results.db"] (.file content) ht
  rw [List.append_assoc]
  cases t with
  | file bytes => nomatch hes
  | dir entries => exact FileTree.isFile?_of_at? hdots hput

/-- A store is opened only in a directory below the root. -/
theorem isFile?_root_of_openStore (hdots : ".." ∉ w.root.parts) (h : openStore w = (.ok (), w')) :
    w'.root = w.root ∧ w'.disk.isFile? w.root = false := by
  rw [openStore, Action.bind_ok Action.get_apply] at h
  by_cases hexists : w.disk.exists? (storeFile w.root) = true
  · simp only [hexists] at h
    rw [← (Prod.mk.inj h).2]
    exact ⟨rfl, isFile?_root_of_exists hdots hexists⟩
  · simp only [hexists] at h
    cases hwrite : w.disk.write (storeFile w.root) [] with
    | error f =>
      rw [hwrite] at h
      nomatch h
    | ok disk =>
      rw [hwrite] at h
      rw [← (Prod.mk.inj h).2]
      exact ⟨rfl, isFile?_root_of_write hdots hwrite⟩

theorem start_dots (m : Machine) : ".." ∉ (start m).root.parts := by
  intro hmem
  have hnil : ∀ p ∈ ([] : List String), Path.IsProper p := by simp
  have hproper := Path.isProper_of_mem_collapse hnil
    (fun p hp => Path.noSlash_of_mem_split hp) ".." hmem
  exact hproper.noDots rfl

/-- The root of an opened session is no regular file. -/
theorem isFile?_root_of_openSession (h : openSession (start m) = (.ok (), w)) :
    w.disk.isFile? w.root = false := by
  rw [openSession] at h
  obtain ⟨⟨⟩, w₁, hsettings, h⟩ := Action.exists_of_bind_ok h
  rw [Action.bind_ok Action.get_apply] at h
  obtain ⟨⟨⟩, w₂, hdirs, h⟩ := Action.exists_of_bind_ok h
  obtain ⟨⟨⟩, w₂', hroom, h⟩ := Action.exists_of_bind_ok h
  have hsame : w₂' = w₂ := (Action.keeps_ensureRoom .discover : Action.Keeps id _).apply hroom
  rw [hsame] at h
  obtain ⟨total, w₃, hrefresh, h⟩ := Action.exists_of_bind_ok h
  obtain ⟨⟨⟩, w₄, hstore, h⟩ := Action.exists_of_bind_ok h
  have hroot₂ : w₂.root = (start m).root := by
    have := makeDirs_root (stateDir w₁.root) w₁
    rw [hdirs] at this
    exact this.trans (loadSettings_root hsettings)
  have hroot₃ : w₃.root = (start m).root := by
    obtain ⟨total', w', hrefresh', hw⟩ := refresh_eq w₂
    rw [hrefresh] at hrefresh'
    obtain ⟨-, rfl⟩ := Prod.mk.inj hrefresh'
    rw [hw]
    exact hroot₂
  have hdots : ".." ∉ w₃.root.parts := hroot₃ ▸ start_dots m
  obtain ⟨hroot₄, hfile⟩ := isFile?_root_of_openStore hdots hstore
  rw [← (Prod.mk.inj h).2]
  show w₄.disk.isFile? w₄.root = false
  rw [hroot₄]
  exact hfile

end FeatureRun.Workspace
