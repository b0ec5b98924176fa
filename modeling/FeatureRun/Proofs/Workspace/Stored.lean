import FeatureRun.Proofs.Run.FailClosed
import FeatureRun.Proofs.Run.Sound
import FeatureRun.Proofs.Watch.Round
import FeatureRun.Proofs.Workspace.Opening

/-!
# What is stored is always well formed

A workspace starts with nothing stored. Runs, imports, forgetting, changes of the catalog and
whatever happens around the workspace follow in any order, and each of them may fail. At every
moment all rows of the store are well formed.

* `Step`, `Reachable`: what can happen to a workspace.
* `healthy_step`: each of it leaves a workspace healthy.
* `wellFormed_of_reachable`: the rows of the store.
-/
set_option autoImplicit false

namespace FeatureRun

open FeatureRun.Action (Keeps Maintains)
open Run (Healthy IsHealthy known)

namespace Workspace

/-- What can happen to a workspace. Where files are read, the files of the catalog have the ids of
feature files. -/
inductive Step : Workspace → Workspace → Prop where
  | run {w : Workspace} (runner : Runner) (ids : Option (List String)) (cancelAfter : Option Nat) :
    Step w (Workspace.run runner ids cancelAfter w).2
  | importReport {w : Workspace} (path : String) (ids : Option (List String)) :
    Step w (importReport path ids w).2
  | forgetFile {w : Workspace} (file : String) :
    Step w { w with store := w.store.forgetFile file }
  | reset {w : Workspace} : Step w { w with store := w.store.reset }
  | refresh {w : Workspace} (hids : (refresh w).2.catalog.FileIds) : Step w (refresh w).2
  | updateFile {w : Workspace} (path : String) (text : Option String)
    (hids : (updateFile path text w).2.catalog.FileIds) : Step w (updateFile path text w).2
  | removeFile {w : Workspace} (path : String) : Step w (removeFile path w).2
  | poll {w : Workspace} (changes : List Change) (now : Option Float)
    (hids : (poll changes now w).2.catalog.FileIds) : Step w (poll changes now w).2
  /-- A new session is opened on the same machine. -/
  | openSession {w : Workspace} (hids : (openSession (start w.toMachine)).2.catalog.FileIds) :
    Step w (openSession (start w.toMachine)).2
  /-- Something else happens: the disk changes, time passes, settings are made. -/
  | around {w w' : Workspace} (hstore : w'.store = w.store) (hcatalog : w'.catalog = w.catalog) :
    Step w w'

/-- The workspaces that come of one with an empty store. -/
inductive Reachable : Workspace → Prop where
  | start {w : Workspace} (hstore : w.store = .empty) (htexts : w.catalog.FromTexts)
    (hids : w.catalog.FileIds) : Reachable w
  | step {w w' : Workspace} (h : Reachable w) (hstep : Step w w') : Reachable w'

variable {w w' : Workspace}

/-! ## Changes of the catalog -/

/-- What is left of being healthy when nothing is said about the ids of files. -/
structure Tidy (w : Workspace) : Prop where
  rows : ∀ n row, w.store.rows.get? n = some row → Store.WellFormed n row
  texts : w.catalog.FromTexts

theorem tidy_of_healthy (h : IsHealthy w) : Tidy w := ⟨h.rows, h.texts⟩

theorem tidy_of_keeps {α : Type} {act : Action α} (h : Keeps known act) : Maintains Tidy act := by
  intro w hw
  obtain ⟨hrows, hcatalog⟩ := Prod.mk.inj (h w)
  exact ⟨hrows ▸ hw.rows, hcatalog ▸ hw.texts⟩

theorem tidy_refresh : Maintains Tidy refresh := by
  intro w hw
  obtain ⟨total, w', hrefresh, hw'⟩ := refresh_eq w
  rw [hrefresh, hw']
  exact ⟨hw.rows, Catalog.fromTexts_empty.updateAll _ _⟩

theorem tidy_poll (changes : List Change) (now : Option Float) :
    Maintains Tidy (poll changes now) := by
  intro w hw
  obtain ⟨w', hpoll, hw'⟩ := poll_eq changes now w rfl
  rw [hpoll, hw']
  exact ⟨hw.rows, Watch.fromTexts_round hw.texts _ _ _ _⟩

theorem tidy_updateFile (path : String) (text : Option String) :
    Maintains Tidy (updateFile path text) := by
  intro w hw
  rcases updateFile_eq path text w with hsame | ⟨content, journal, hupdated⟩
  · rwa [hsame]
  · rw [hupdated]
    exact ⟨hw.rows, hw.texts.update _ _⟩

theorem tidy_removeFile (path : String) : Maintains Tidy (removeFile path) :=
  fun _ hw => ⟨hw.rows, hw.texts.removeFile _⟩

theorem keeps_loadSettings : Keeps known loadSettings := by
  refine .get_bind fun w => ?_
  cases settingsAt w.surroundings.load w.disk w.root with
  | error e => rfl
  | ok s =>
    rw [Action.bind_ok (Action.ofExcept_ok id s), Action.set_apply]
    -- the level of the journal is not looked at
    dsimp only [known]

/-- Opening a store keeps what is in it, or finds it empty. -/
theorem tidy_openStore : Maintains Tidy openStore := by
  refine .get_bind fun w hw => ?_
  by_cases hexists : w.disk.exists? (storeFile w.root) = true
  · simp only [hexists]
    exact hw
  · simp only [hexists]
    cases w.disk.write (storeFile w.root) [] with
    | error e => exact hw
    | ok disk => exact ⟨fun _ _ h => (nomatch h), hw.texts⟩

theorem tidy_openSession : Maintains Tidy openSession := by
  refine (tidy_of_keeps keeps_loadSettings).bind fun _ => .get_bind fun w hw => ?_
  refine Maintains.bind (tidy_of_keeps fun _ => rfl) (fun _ => ?_) w hw
  refine (tidy_of_keeps (Action.keeps_ensureRoom .discover)).bind fun _ => ?_
  refine tidy_refresh.bind fun _ => tidy_openStore.bind fun _ => ?_
  exact fun v hv => ⟨hv.rows, hv.texts⟩

/-! ## All steps -/

/-- Nothing that can happen leaves a workspace unhealthy. -/
theorem healthy_step (h : Step w w') (hw : IsHealthy w) : IsHealthy w' := by
  have htidy := tidy_of_healthy hw
  have hcatalog : ∀ {v : Workspace}, Tidy v → v.catalog.FileIds → IsHealthy v :=
    fun hv hids => ⟨hv.rows, hv.texts, hids⟩
  cases h with
  | run runner ids cancelAfter => exact Run.maintains_run runner ids cancelAfter w hw
  | importReport path ids => exact Run.maintains_importReport path ids w hw
  | forgetFile file =>
    refine ⟨fun n row hrow => ?_, hw.texts, hw.ids⟩
    have hfilter := OrderedMap.get?_filter w.store.rows (fun _ r => decide (r.file ≠ file)) n
    exact hw.rows n row (Option.eq_some_of_filter_eq_some (hfilter.symm.trans hrow))
  | reset => exact ⟨fun _ _ h => (nomatch h), hw.texts, hw.ids⟩
  | refresh hids => exact hcatalog (tidy_refresh w htidy) hids
  | updateFile path text hids => exact hcatalog (tidy_updateFile path text w htidy) hids
  | removeFile path =>
    refine hcatalog (tidy_removeFile path w htidy) fun file f hget => ?_
    have hrest : (w.catalog.removeFile (w.fileId path)).get? file = some f := hget
    rw [Catalog.get?_removeFile] at hrest
    split at hrest
    · nomatch hrest
    · exact hw.ids file f hrest
  | poll changes now hids => exact hcatalog (tidy_poll changes now w htidy) hids
  | openSession hids =>
    exact hcatalog (tidy_openSession _ ⟨hw.rows, Catalog.fromTexts_empty⟩) hids
  | around hstore hsame =>
    rw [IsHealthy, hstore, hsame]
    exact hw

theorem healthy_of_reachable (h : Reachable w) : IsHealthy w := by
  induction h with
  | start hstore htexts hids =>
    refine ⟨fun n row hrow => ?_, htexts, hids⟩
    rw [hstore] at hrow
    nomatch hrow
  | step _ hstep ih => exact healthy_step hstep ih

/-- Every row that is ever stored is well formed. -/
theorem wellFormed_of_reachable (h : Reachable w) {n : String} {row : Store.Row}
    (hrow : w.store.rows.get? n = some row) : Store.WellFormed n row :=
  (healthy_of_reachable h).rows n row hrow

/-- A run without a report, of a feature that has never been run. -/
theorem wellFormed_of_reachable_of_first_run :
    let w := (Workspace.run (.scripted none [] (.ok 1)) none none Run.oneScenario).2
    Reachable w ∧ ∃ row, w.store.rows.get? "/a.feature" = some row ∧
      Store.WellFormed "/a.feature" row := by
  intro w
  have htexts : Run.oneScenario.catalog.FromTexts := Catalog.fromTexts_empty.update _ (.ok _)
  have hids : Run.oneScenario.catalog.FileIds :=
    Catalog.fileIds_empty.update ⟨by decide, by decide, by decide⟩ (.ok _)
  have h : Reachable w := .step (.start rfl htexts hids)
    (.run (.scripted none [] (.ok 1)) none none)
  have hsome : (w.store.rows.get? "/a.feature").isSome = true := by decide +kernel
  obtain ⟨row, hrow⟩ := Option.isSome_iff_exists.1 hsome
  exact ⟨h, row, hrow, wellFormed_of_reachable h hrow⟩

end Workspace
end FeatureRun
