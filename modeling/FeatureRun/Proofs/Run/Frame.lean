import FeatureRun.Proofs.Run.Course

/-!
# What a run leaves alone

A run works on the disk and on the store, takes notes, and shows how it goes. Everything else about
the workspace stays as it is, however the run ends: its settings, what is in the catalog, what waits
to be read, and the number of tests on display. Apart from its runner and the wait for the report it
does not even touch the disk.

* `unlogged`: what is left alone around the runner and the wait.
* `unrun`, `keeps_run`: what a run leaves alone.
-/
set_option autoImplicit false

namespace FeatureRun

namespace StatusBar

theorem tests_running (b : StatusBar) (name : Option String) :
    (b.running name).tests = b.tests := by
  cases name <;> rfl

theorem tests_failed (b : StatusBar) (count : Option Int) : (b.failed count).tests = b.tests := by
  cases count <;> rfl

end StatusBar

namespace Run

open FeatureRun.Action (Keeps)
open Report (Entry Stage)

/-- What is left of a workspace by writing to the store and showing how a run goes. -/
def unlogged (w : Workspace) : Workspace :=
  { w with store := .empty, status := ⟨.idle, "", w.status.tests, []⟩, journal := .new }

/-- What a run leaves of a workspace. -/
def unrun (w : Workspace) : Workspace := offDisk (unlogged w)

variable {α : Type}

/-! ## The steps of a run -/

theorem keeps_unlogged_display {change : StatusBar → StatusBar}
    (h : ∀ b, (change b).tests = b.tests) : Keeps unlogged (Action.display change) := by
  intro w
  rw [Action.display_apply, unlogged, unlogged, h]

theorem keeps_unlogged_onStore (act : Store → Except StoreFault α × Store) :
    Keeps unlogged (Action.onStore act) := fun _ => rfl

theorem keeps_unlogged_startRun (targets : List String) : Keeps unlogged (startRun targets) :=
  (Action.keeps_ensureEncoded _).bind fun _ => .get_bind fun w => keeps_unlogged_onStore _ w

theorem keeps_unlogged_finishRun (run : Int) (counts : Summary) (status : Option RunStatus) :
    Keeps unlogged (finishRun run counts status) :=
  .get_bind fun w => keeps_unlogged_onStore _ w

theorem keeps_unlogged_of_unrecorded {act : Action α} (h : Keeps unrecorded act) :
    Keeps unlogged act :=
  h.part unlogged

theorem keeps_unlogged_enter (selected : List String) : Keeps unlogged (enter selected) := by
  refine .get_bind fun w => ?_
  refine Keeps.bind ((keeps_targets w.root selected).part unlogged) (fun targets => ?_) w
  refine ((keeps_nameOf selected).part unlogged).bind fun name => ?_
  refine (keeps_unlogged_display fun b => b.tests_running _).bind fun _ => ?_
  exact (keeps_unlogged_startRun selected).bind fun run => Action.keeps_pure _

theorem keeps_unlogged_failAll (run : Int) (selected : List String) (failure : Failure) :
    Keeps unlogged (failAll run selected failure) := by
  rw [failAll_eq]
  refine (keeps_unlogged_of_unrecorded (keeps_recordEncoded _ _)).bind fun _ => ?_
  refine (keeps_unlogged_finishRun _ _ _).bind fun _ => ?_
  exact (keeps_unlogged_display fun b => b.tests_failed none).bind fun _ => Action.keeps_pure _

theorem keeps_unlogged_finish (run : Int) (found : Results × Summary) :
    Keeps unlogged (finish run found) := by
  refine (keeps_unlogged_finishRun _ _ _).bind fun _ => ?_
  refine (keeps_unlogged_display fun b => ?_).bind fun _ => Action.keeps_pure _
  split
  · exact b.tests_failed _
  · rfl

/-- Once its runner has been in trouble, a run leaves the disk alone. -/
theorem keeps_unlogged_conclude_error (runner : Runner) (selected : List String)
    (cancelAfter : Option Nat) (run : Int) (report : Path) (e : Runner.Fault) :
    Keeps unlogged (conclude runner selected cancelAfter run report (.error e)) :=
  Keeps.bind (fun _ => rfl) fun _ => keeps_unlogged_failAll _ _ _

theorem keeps_unrun_of_offDisk {act : Action α} (h : Keeps offDisk act) : Keeps unrun act :=
  h.part unrun

theorem keeps_unrun_of_unlogged {act : Action α} (h : Keeps unlogged act) : Keeps unrun act :=
  h.part offDisk

theorem keeps_unrun_collect (run : Int) (selected : List String) (cancelAfter : Option Nat)
    (report : Path) (later : List Stage) :
    Keeps unrun (collect run selected cancelAfter report later) := by
  refine Keeps.endingWith ?_ fun _ => rfl
  have hawait := keeps_offDisk (keeps_awaitReport report later)
  refine (keeps_unrun_of_offDisk hawait).bind fun entries => ?_
  cases entries with
  | none => exact Action.keeps_pure none
  | some entries =>
    have happly := keeps_applyReportWith (keeps_recordEncoded (some run)) entries (some selected)
      cancelAfter
    exact (happly.part unrun).bind fun found => Action.keeps_pure (some found)

theorem keeps_unrun_conclude (runner : Runner) (selected : List String) (cancelAfter : Option Nat)
    (run : Int) (report : Path) (result : Except Runner.Fault Int) :
    Keeps unrun (conclude runner selected cancelAfter run report result) := by
  cases result with
  | error e => exact keeps_unrun_of_unlogged (keeps_unlogged_conclude_error _ _ _ _ _ e)
  | ok code =>
    refine (keeps_unrun_collect _ _ _ _ _).bind fun found => ?_
    cases found with
    | none => exact keeps_unrun_of_unlogged (keeps_unlogged_failAll _ _ _)
    | some found => exact keeps_unrun_of_unlogged (keeps_unlogged_finish run found)

/-- A run leaves everything but its own traces as it is, however it ends. -/
theorem keeps_run (runner : Runner) (ids : Option (List String)) (cancelAfter : Option Nat) :
    Keeps unrun (Workspace.run runner ids cancelAfter) := by
  intro w
  cases hselect : w.catalog.select ids with
  | error e => rw [run_of_select_error hselect]
  | ok selected =>
    by_cases hsome : selected = []
    · rw [hsome] at hselect
      rw [run_of_select_nil hselect]
    · rw [run_eq hselect hsome]
      refine (keeps_unrun_of_unlogged (keeps_unlogged_enter selected)).bind (fun e => ?_) w
      exact (keeps_unrun_of_offDisk (keeps_release _ _)).bind fun l =>
        keeps_unrun_conclude _ _ _ _ _ _

end Run
end FeatureRun
