import FeatureRun.Proofs.Action
import FeatureRun.Proofs.Catalog.Update
import FeatureRun.Proofs.Watch.Filter

/-!
# Keeping a workspace up to date

What discovering all files and one round of watching leave of a workspace. Neither of them changes
the disk, and discovering does not fail. After all files have been discovered the catalog has what
is on the disk for every file that the watcher accepts.
-/
set_option autoImplicit false

namespace FeatureRun.Workspace

variable {w : Workspace} {file : String}

theorem refresh_eq (w : Workspace) : ∃ total w', refresh w = (.ok total, w') ∧
    w' = { w with
      catalog := Catalog.empty.updateAll w.disk w.discovered
      journal := w'.journal
      status := w'.status } :=
  ⟨_, _, rfl, rfl⟩

theorem poll_eq (changes : List Change) (now : Option Float) (w : Workspace) {r : Watch.Round}
    (hr : Watch.round w.scene w.catalog w.schedule changes (now.getD w.clock) = r) :
    ∃ w', poll changes now w = (r.touched.mapError .file, w') ∧
      w' = { w with
        catalog := r.catalog
        schedule := r.schedule
        journal := w'.journal
        status := w'.status } := by
  rw [poll, Action.bind_ok Action.get_apply, hr, Action.bind_ok (Action.note_apply r.notes)]
  cases r.touched with
  | error e => exact ⟨_, rfl, rfl⟩
  | ok touched => cases touched <;> exact ⟨_, rfl, rfl⟩

/-- A round whose batch breaks off leaves what was taken in, and shows nothing of it. -/
theorem poll_of_broken {changes : List Change} (now : Option Float) {e : FileFault}
    {s : Watch.State} (h : Watch.apply w.scene w.catalog w.schedule changes = (.error e, s)) :
    poll changes now w = (.error (.file e), { w with
      catalog := s.catalog
      schedule := s.schedule
      journal := w.journal.add s.notes.reverse }) := by
  rw [poll, Action.bind_ok Action.get_apply, Watch.round, h]
  rfl

theorem textOf_frame (file : String) (w : Workspace) : (textOf file w).2 = w := by
  rw [textOf, Action.bind_ok Action.get_apply]
  cases Catalog.textOf w.disk file with
  | error e =>
    dsimp only
    split <;> rfl
  | ok text => rfl

/-- Reading one file anew leaves a catalog that is brought up to date for this file, or nothing at
all if there can be no such file. -/
theorem updateFile_eq (path : String) (text : Option String) (w : Workspace) :
    (updateFile path text w).2 = w ∨
    ∃ content journal, (updateFile path text w).2 = { w with
      catalog := w.catalog.update (w.fileId path) content
      journal := journal } := by
  rw [updateFile, Action.bind_ok Action.get_apply]
  generalize w.fileId path = file
  cases text with
  | some t => exact .inr ⟨.ok t, _, rfl⟩
  | none =>
    have htext : textOf file w = ((textOf file w).1, w) := Prod.ext rfl (textOf_frame _ w)
    dsimp only
    cases hcontent : (textOf file w).1 with
    | error e =>
      rw [hcontent] at htext
      rw [Action.bind_error htext]
      exact .inl rfl
    | ok content =>
      rw [hcontent] at htext
      rw [Action.bind_ok htext]
      exact .inr ⟨content, _, rfl⟩

/-- After discovery the catalog has what is on the disk for every discovered file, and no more. -/
theorem get?_refresh_eq (w : Workspace) (file : String) : (refresh w).2.catalog.get? file =
    if file ∈ w.discovered then Catalog.onDisk w.disk file else none := by
  obtain ⟨total, w', hrefresh, hw⟩ := refresh_eq w
  rw [hrefresh, hw, Catalog.get?_updateAll]
  rfl

/-- It then has what is on the disk for every file that the watcher accepts. -/
theorem get?_refresh (hfile : Watch.IsWatched w.root w.settings.excludeDirs file)
    (hroot : Path.ofString file = w.root → w.disk.isFile? w.root = false) :
    (refresh w).2.catalog.get? file = Catalog.onDisk w.disk file := by
  rw [get?_refresh_eq]
  split
  · rfl
  · rename_i hnot
    cases hbytes : w.disk.bytes? (.ofString file) with
    | none => exact (Catalog.onDisk_eq_none hbytes).symm
    | some bytes => exact absurd (mem_discovered hfile hroot hbytes) hnot

end FeatureRun.Workspace
