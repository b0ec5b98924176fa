import FeatureRun.Proofs.Disk.Unlink
import FeatureRun.Proofs.Run.FailClosed
import FeatureRun.Proofs.Run.Frame

/-!
# What becomes of the report

When its runner has ended, a run takes the report away, whatever comes of the wait for it and of
applying it. When its runner has been in trouble, the run leaves the report that may be there.

* `ComesTo`: a run gets as far as to its runner.
* `Exit`, `exit_run`: what a run leaves in the place of its report, by how its runner has ended.
* `stays_of_trouble`: a runner in trouble, whose report stays.
-/
set_option autoImplicit false

namespace FeatureRun.Run

open FeatureRun.Action (Keeps Maintains Establishes)
open Report (Entry Stage)

variable {runner : Runner} {ids : Option (List String)} {cancelAfter : Option Nat}
  {selected : List String} {run : Int} {report : Path} {targets : List Target}
  {w w' w₀ : Workspace}

/-- A run from `w` gets as far as to its runner, which is to be launched in `w₀`: some nodes are
selected, the run is entered, and there is a directory for the report. -/
def ComesTo (ids : Option (List String)) (w : Workspace) (targets : List Target) (report : Path)
    (w₀ : Workspace) : Prop :=
  ∃ selected run w₁, w.catalog.select ids = .ok selected ∧ selected ≠ [] ∧
    enter selected w = (.ok (targets, run), w₁) ∧ reportPath w₁ = (.ok report, w₀)

/-- What a run that has come to its runner leaves in the place of the report, by what has come of
launching the runner. -/
def Leaves (report : Path) (w' : Workspace) :
    Except Fault (Except Runner.Fault Int) × Workspace → Prop
  /- The runner has ended with a code. -/
  | (.ok (.ok _), _) => w'.disk.isFile? report = false
  /- The runner has been in trouble, or could not even be asked. -/
  | (.ok (.error _), w₁) | (.error _, w₁) => w'.disk = w₁.disk

/-- How a run from `w` exits. -/
inductive Exit (runner : Runner) (ids : Option (List String)) (w w' : Workspace) : Prop where
  /-- It has not launched any runner. -/
  | idle (h : w'.launches = w.launches)
  /-- It has launched its runner, once. -/
  | launched {targets : List Target} {report : Path} {w₀ : Workspace}
      (comes : ComesTo ids w targets report w₀)
      (once : w'.launches = ⟨targets, report.toString⟩ :: w.launches)
      (leaves : Leaves report w' (launch runner targets report w₀))

/-! ## Launches -/

/-- The launches of runners so far. -/
def launched (w : Workspace) : List Launch := w.launches

theorem launched_launch (runner : Runner) (targets : List Target) (report : Path) (w : Workspace) :
    launched (launch runner targets report w).2 = ⟨targets, report.toString⟩ :: launched w :=
  congrArg launched (offReport_launch runner targets report w)

theorem keeps_launched_collect (run : Int) (selected : List String) (cancelAfter : Option Nat)
    (report : Path) (later : List Stage) :
    Keeps launched (collect run selected cancelAfter report later) := by
  refine Keeps.endingWith ?_ fun _ => rfl
  refine Keeps.bind ((keeps_awaitReport report later).part launched) fun entries => ?_
  cases entries with
  | none => exact Action.keeps_pure none
  | some entries =>
    have happly := keeps_applyReportWith (keeps_recordEncoded (some run)) entries (some selected)
      cancelAfter
    exact (happly.part launched).bind fun found => Action.keeps_pure (some found)

/-- Concluding a run launches nothing. -/
theorem keeps_launched_conclude (runner : Runner) (selected : List String)
    (cancelAfter : Option Nat) (run : Int) (report : Path) (result : Except Runner.Fault Int) :
    Keeps launched (conclude runner selected cancelAfter run report result) := by
  cases result with
  | error e => exact (keeps_unlogged_conclude_error _ _ _ _ _ e).part launched
  | ok code =>
    refine (keeps_launched_collect _ _ _ _ _).bind fun found => ?_
    cases found with
    | none => exact (keeps_unlogged_failAll _ _ _).part launched
    | some found => exact (keeps_unlogged_finish run found).part launched

theorem launched_conclude :
    launched ((launch runner targets report >>=
      conclude runner selected cancelAfter run report) w).2 =
        ⟨targets, report.toString⟩ :: launched w := by
  have h := launched_launch runner targets report w
  rcases hlaunch : launch runner targets report w with ⟨e | result, w₁⟩
  · rw [Action.bind_error hlaunch]
    rwa [hlaunch] at h
  · rw [Action.bind_ok hlaunch]
    rw [hlaunch] at h
    exact (keeps_launched_conclude _ _ _ _ _ _ w₁).trans h

/-! ## The report -/

/-- When the report has been waited for, its place holds no file, and what follows leaves that. -/
theorem establishes_conclude_ok (runner : Runner) (selected : List String)
    (cancelAfter : Option Nat) (run : Int) (code : Int) (hreport : report.parts ≠ []) :
    Establishes (fun w => w.disk.isFile? report = false)
      (conclude runner selected cancelAfter run report (.ok code)) := by
  have hgone : ∀ {α : Type} {act : Action α}, Keeps unlogged act →
      Maintains (fun w => w.disk.isFile? report = false) act := fun h =>
    (h.part fun w => w.disk).maintains fun disk => disk.isFile? report = false
  refine Establishes.bind (Action.establishes_endingWith ?_) fun found => ?_
  · exact fun w => w.disk.isFile?_unlink hreport
  · cases found with
    | none => exact hgone (keeps_unlogged_failAll _ _ _)
    | some found => exact hgone (keeps_unlogged_finish run found)

theorem parts_ne_nil_of_reportPath (h : reportPath w = (.ok report, w')) : report.parts ≠ [] := by
  rw [reportPath, Action.bind_ok Action.get_apply] at h
  obtain ⟨_, _, -, h⟩ := Action.exists_of_bind_ok h
  cases h
  exact List.append_ne_nil_of_right_ne_nil _ (List.cons_ne_nil _ _)

/-- What is concluded after a launch leaves as much of the report as the launch asks for. -/
theorem leaves_conclude {res : Except Fault (Except Runner.Fault Int)}
    (hreport : report.parts ≠ []) (hlaunch : launch runner targets report w₀ = (res, w')) :
    Leaves report ((launch runner targets report >>=
      conclude runner selected cancelAfter run report) w₀).2 (res, w') := by
  match res with
  | .error e => rw [Action.bind_error hlaunch]; rfl
  | .ok (.error e) =>
    rw [Action.bind_ok hlaunch]
    exact (keeps_unlogged_conclude_error _ _ _ _ _ e).part (fun w => w.disk) w'
  | .ok (.ok code) =>
    rw [Action.bind_ok hlaunch]
    exact establishes_conclude_ok _ _ _ _ code hreport w'

/-- Every run takes the report of its runner away, if that ends with a code; otherwise it leaves on
the disk what the runner has left there. -/
theorem exit_run (runner : Runner) (ids : Option (List String)) (cancelAfter : Option Nat)
    (w : Workspace) : Exit runner ids w (Workspace.run runner ids cancelAfter w).2 := by
  cases hselect : w.catalog.select ids with
  | error e =>
    rw [run_of_select_error hselect]
    exact .idle rfl
  | ok selected =>
    by_cases hsome : selected = []
    · rw [hsome] at hselect
      rw [run_of_select_nil hselect]
      exact .idle rfl
    rw [run_eq hselect hsome]
    have hkeepEnter := (keeps_unlogged_enter selected).part launched
    rcases henter : enter selected w with ⟨e | ⟨targets, run⟩, w₁⟩
    · rw [Action.bind_error henter]
      exact .idle (hkeepEnter.apply henter)
    have hentered : launched w₁ = launched w := hkeepEnter.apply henter
    rw [Action.bind_ok henter]
    simp only [release, bind_assoc, pure_bind]
    have hkeepPlace := keeps_reportPath.part launched
    rcases hplace : reportPath w₁ with ⟨e | report, w₀⟩
    · rw [Action.bind_error hplace]
      exact .idle ((hkeepPlace.apply hplace).trans hentered)
    have hplaced : launched w₀ = launched w := (hkeepPlace.apply hplace).trans hentered
    rw [Action.bind_ok hplace]
    refine .launched ⟨selected, run, w₁, hselect, hsome, henter, hplace⟩ ?_
      (leaves_conclude (parts_ne_nil_of_reportPath hplace) rfl)
    exact launched_conclude.trans (congrArg (_ :: ·) hplaced)

example :
    let w := (Workspace.run (.scripted (some [0x5b]) [] (.ok 1)) none none oneScenario).2
    w.launches.map Launch.report = ["/target/.cucumber-result-0.json"] ∧
      w.disk.isFile? (Path.ofString "/target/.cucumber-result-0.json") = false := by
  decide +kernel

/-- A runner writes the first byte of its report and runs out of time: its report stays. -/
theorem stays_of_trouble :
    let w := (Workspace.run (.scripted (some [0x5b]) [] (.error (.timedOut 600.0))) none none
      oneScenario).2
    w.launches.map Launch.report = ["/target/.cucumber-result-0.json"] ∧
      w.disk.isFile? (Path.ofString "/target/.cucumber-result-0.json") = true := by
  decide +kernel

end FeatureRun.Run
