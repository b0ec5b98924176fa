import FeatureRun.Proofs.Watch.Overlong
import FeatureRun.Proofs.Workspace.Opening

/-!
# No update is lost

Files change, time passes and batches of changes are taken in, in any order. At every moment each
file that the watcher accepts has a change that has not been delivered, or waits to be read, or is
in the catalog as it is on the disk. Of a batch that breaks off only the changes before the fault
are delivered.

* `Site`: a workspace and the paths with changes that are still to be delivered.
* `Step`, `Reachable`: what can happen.
* `no_lost_update`: the invariant, and that nothing is left to discover once all is delivered and
  read.
-/
set_option autoImplicit false

namespace FeatureRun.Watch

open Catalog (onDisk)

/-- A workspace, and the paths with changes that are still to be delivered. -/
structure Site where
  workspace : Workspace
  undelivered : String → Prop

/-- What can happen at a site. -/
inductive Step : Site → Site → Prop where
  /-- The disk changes at will. A path where the content of a regular file is another one than
  before, or where there is such a file no longer or only now, has a change to be delivered. -/
  | edit {w : Workspace} {undelivered undelivered' : String → Prop} (disk : FileTree)
      (kept : ∀ path, undelivered path → undelivered' path)
      (noticed : ∀ path, Path.IsNormal path →
        disk.bytes? (.ofString path) ≠ w.disk.bytes? (.ofString path) → undelivered' path) :
      Step ⟨w, undelivered⟩ ⟨{ w with disk := disk }, undelivered'⟩
  /-- The clock is set. -/
  | tick {w : Workspace} {undelivered : String → Prop} (clock : Float) :
      Step ⟨w, undelivered⟩ ⟨{ w with clock := clock }, undelivered⟩
  /-- One round of watching with any batch and at any time: the paths of the changes that are taken
  in are delivered, so all paths of the batch if nothing is blocked. -/
  | poll {w : Workspace} {undelivered : String → Prop} (changes : List Change)
      (now : Option Float) :
      Step ⟨w, undelivered⟩ ⟨(Workspace.poll changes now w).2,
        fun path => undelivered path ∧ path ∉ (taken w.scene changes).map Change.path⟩

/-- The sites that a run can come to when all files of a workspace have just been discovered. -/
inductive Reachable (w : Workspace) : Site → Prop where
  | start : Reachable w ⟨(Workspace.refresh w).2, fun _ => False⟩
  | step {s t : Site} (h : Reachable w s) (hstep : Step s t) : Reachable w t

/-- The files of a site that its watcher accepts. -/
def Site.Watches (s : Site) (file : String) : Prop :=
  IsWatched s.workspace.root s.workspace.settings.excludeDirs file

/-- A file with a change to be delivered, or one that is pending or up to date. -/
def Site.Covered (s : Site) (file : String) : Prop :=
  s.undelivered file ∨ Settled s.workspace.disk s.workspace.catalog s.workspace.schedule file

variable {w : Workspace} {s t : Site} {file : String}

/-- Whatever happens at a site, its watcher goes on to look at the same files. -/
theorem step_frame (h : Step s t) :
    t.workspace.root = s.workspace.root ∧ t.workspace.settings = s.workspace.settings := by
  cases h with
  | edit disk kept noticed => exact ⟨rfl, rfl⟩
  | tick clock => exact ⟨rfl, rfl⟩
  | @poll w undelivered changes now =>
    obtain ⟨w', hpoll, hw⟩ := Workspace.poll_eq changes now w rfl
    rw [hpoll, hw]
    exact ⟨rfl, rfl⟩

theorem reachable_frame (h : Reachable w s) :
    s.workspace.root = w.root ∧ s.workspace.settings = w.settings := by
  induction h with
  | start =>
    obtain ⟨total, w', hrefresh, hw⟩ := Workspace.refresh_eq w
    rw [hrefresh, hw]
    exact ⟨rfl, rfl⟩
  | step h hstep ih =>
    obtain ⟨hroot, hsettings⟩ := step_frame hstep
    exact ⟨hroot.trans ih.1, hsettings.trans ih.2⟩

/-- The change of a watched path is about the file at that path. -/
theorem concerns_of_path {scene : Scene} {c : Change} (h : IsWatched scene.root scene.excluded file)
    (hc : c.path = file) : Concerns scene c file := by
  subst hc
  refine ⟨h.accepted, ?_⟩
  rw [Path.normalize_of_absolute _ h.normal.absolute, h.normal.normal]

/-- No step leaves a watched file behind. -/
theorem covered_step (h : Step s t) (hwatched : s.Watches file) (hs : s.Covered file) :
    t.Covered file := by
  cases h with
  | @edit w undelivered undelivered' disk kept noticed =>
    rcases hs with hundelivered | hpending | hget
    · exact .inl (kept file hundelivered)
    · exact .inr (.inl hpending)
    · by_cases hsame : disk.bytes? (.ofString file) = w.disk.bytes? (.ofString file)
      · exact .inr (.inr (hget.trans (Catalog.onDisk_congr hsame.symm)))
      · exact .inl (noticed file hwatched.normal hsame)
  | tick clock => exact hs
  | @poll w undelivered changes now =>
    obtain ⟨w', hpoll, hw⟩ := Workspace.poll_eq changes now w rfl
    rw [hpoll, hw]
    by_cases hbatch : file ∈ (taken w.scene changes).map Change.path
    · obtain ⟨c, hc, hpath⟩ := List.mem_map.1 hbatch
      have hconcerns : Concerns w.scene c file := concerns_of_path hwatched hpath
      exact .inr (settled_round (.inr ⟨c, hc, hconcerns⟩))
    · rcases hs with hundelivered | hsettled
      · exact .inl ⟨hundelivered, hbatch⟩
      · exact .inr (settled_round (.inl hsettled))

/-- Every file that the watcher accepts is covered all the time. -/
theorem covered_of_reachable (h : Reachable w s)
    (hfile : IsWatched w.root w.settings.excludeDirs file)
    (hroot : Path.ofString file = w.root → w.disk.isFile? w.root = false) : s.Covered file := by
  induction h with
  | start =>
    have hget := Workspace.get?_refresh hfile hroot
    obtain ⟨total, w', hrefresh, hw⟩ := Workspace.refresh_eq w
    rw [hrefresh] at hget ⊢
    rw [hw] at hget ⊢
    exact .inr (.inr hget)
  | @step s t h hstep ih =>
    have hwatched : s.Watches file := by
      rw [Site.Watches, (reachable_frame h).1, (reachable_frame h).2]
      exact hfile
    exact covered_step hstep hwatched ih

/-- In a session that was opened nothing more need be said about the root. -/
theorem covered_of_openSession {m : Machine}
    (hopen : Workspace.openSession (.start m) = (.ok (), w)) (h : Reachable w s)
    (hfile : IsWatched w.root w.settings.excludeDirs file) : s.Covered file :=
  covered_of_reachable h hfile fun _ => Workspace.isFile?_root_of_openSession hopen

/-- At every moment of a run and for every file that the watcher accepts: a change of the file is
still to be delivered, or the file waits to be read, or the catalog has what reading it now would
give; and then discovering all files anew would leave what the catalog has for it as it is. Only the
root of the workspace, which the watcher accepts if it has the name of a feature file, must not be a
regular file; no opened session has such a root. -/
theorem no_lost_update (h : Reachable w s) (hfile : IsWatched w.root w.settings.excludeDirs file)
    (hroot : Path.ofString file = w.root → w.disk.isFile? w.root = false) :
    (s.undelivered file ∨ file ∈ s.workspace.schedule.pending ∨
      s.workspace.catalog.get? file = onDisk s.workspace.disk file) ∧
    (¬s.undelivered file → file ∉ s.workspace.schedule.pending →
      (Path.ofString file = w.root → s.workspace.disk.isFile? w.root = false) →
      s.workspace.catalog.get? file = (Workspace.refresh s.workspace).2.catalog.get? file) := by
  have hcovered := covered_of_reachable h hfile hroot
  refine ⟨hcovered, fun hdelivered hflushed hrootNow => ?_⟩
  obtain ⟨hsame, hsettings⟩ := reachable_frame h
  have hget := (hcovered.resolve_left hdelivered).resolve_left hflushed
  rw [hget, Workspace.get?_refresh]
  · rw [hsame, hsettings]
    exact hfile
  · rw [hsame]
    exact hrootNow

/-- A feature file is made in an empty workspace, and the change is delivered. -/
theorem no_lost_update_of_new_file : ∃ w s, Reachable w s ∧
    IsWatched w.root w.settings.excludeDirs "/w/a.feature" ∧
    s.workspace.disk.isFile? (.ofString "/w/a.feature") = true ∧ ¬s.undelivered "/w/a.feature" ∧
    ("/w/a.feature" ∈ s.workspace.schedule.pending ∨
      s.workspace.catalog.get? "/w/a.feature" = onDisk s.workspace.disk "/w/a.feature") := by
  let w : Workspace :=
    .start ⟨.dir [("w", .dir [])], .empty, .new, "/w", "", 0, 0, [], [], .usual⟩
  -- the text of the file is "Feature:"
  let disk : FileTree :=
    .dir [("w", .dir [("a.feature", .file [70, 101, 97, 116, 117, 114, 101, 58])])]
  have hedited : Reachable w ⟨{ (Workspace.refresh w).2 with disk := disk }, _⟩ :=
    .step .start (.edit disk (fun _ h => h.elim) fun path _ hchanged => hchanged)
  have hpolled := hedited.step (.poll [⟨.added, "/w/a.feature"⟩] none)
  have hfile : IsWatched w.root w.settings.excludeDirs "/w/a.feature" :=
    ⟨⟨by decide, by decide⟩, by decide⟩
  have hroot : Path.ofString "/w/a.feature" = w.root → w.disk.isFile? w.root = false := by decide
  have hdisk : disk.isFile? (.ofString "/w/a.feature") = true := by decide
  have htaken : "/w/a.feature" ∈ (taken (Workspace.scene { (Workspace.refresh w).2 with
      disk := disk }) [⟨.added, "/w/a.feature"⟩]).map Change.path := by decide +kernel
  obtain ⟨w', hpoll, hw⟩ := Workspace.poll_eq [⟨.added, "/w/a.feature"⟩] none
    { (Workspace.refresh w).2 with disk := disk } rfl
  refine ⟨w, _, hpolled, hfile, ?_, fun h => h.2 htaken, ?_⟩
  · rw [hpoll, hw]
    exact hdisk
  · exact (no_lost_update hpolled hfile hroot).1.resolve_left fun h => h.2 htaken

/-- A workspace without any file. -/
def emptyWorkspace : Workspace :=
  .start ⟨.dir [("w", .dir [])], .empty, .new, "/w", "", 0, 0, [], [], .usual⟩

/-- The same after its features have been discovered and a file has been made that holds
"Feature:". -/
def withNewFile : Workspace :=
  { (Workspace.refresh emptyWorkspace).2 with
    disk := .dir [("w", .dir [("c.feature", .file [70, 101, 97, 116, 117, 114, 101, 58])])] }

/-- The new file is reported, and before it a path that the system refuses. -/
def refusedFirst : List Change := [⟨.added, overlongPath⟩, ⟨.added, "/w/c.feature"⟩]

/-- The batch breaks off before the new file, which neither waits nor is it in the catalog. -/
theorem lost_update_of_refused_path :
    IsWatched withNewFile.root withNewFile.settings.excludeDirs "/w/c.feature" ∧
    "/w/c.feature" ∈ refusedFirst.map Change.path ∧
    ∃ e w', Workspace.poll refusedFirst none withNewFile = (.error e, w') ∧
      "/w/c.feature" ∉ w'.schedule.pending ∧
      w'.catalog.get? "/w/c.feature" ≠ onDisk w'.disk "/w/c.feature" := by
  have hfile : IsWatched withNewFile.root withNewFile.settings.excludeDirs "/w/c.feature" :=
    ⟨⟨by decide, by decide⟩, by decide +kernel⟩
  have hsorted : refusedFirst.Pairwise fun a b => a.path ≤ b.path :=
    List.pairwise_pair.2 overlongPath_between.2
  obtain ⟨e, happly⟩ : ∃ e, apply withNewFile.scene withNewFile.catalog withNewFile.schedule
      refusedFirst = (.error e, ⟨withNewFile.catalog, withNewFile.schedule, [], []⟩) := by
    rw [apply_of_sorted _ _ _ hsorted]
    exact takeAll_overlong rfl rfl _ _ _
  exact ⟨hfile, List.mem_cons_of_mem _ List.mem_cons_self, _, _,
    Workspace.poll_of_broken none happly, by decide +kernel, by decide +kernel⟩

end FeatureRun.Watch
