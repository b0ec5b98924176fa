import FeatureRun.Proofs.Run.FailClosed
import FeatureRun.Proofs.Run.Reconcile

/-!
# How runs end

A run that has been entered is finished in the log exactly if it gives a result. The only faults
that keep it from that are those of the machine around it: its runner cannot be let go, the wait for
its report breaks off, or what has become of its nodes cannot be stored. Then its row is left as it
was when the run started.

* `BreaksOff`: the faults that keep a run from being finished.
* `finished_unless_breaksOff`: the row of a run, with and without such a fault.
-/
set_option autoImplicit false

namespace FeatureRun.Run

open Report (Entry)

/-- A run that has been entered gives no result; `w` is the workspace in which it was entered. -/
inductive BreaksOff (runner : Runner) (selected : List String) (cancelAfter : Option Nat)
    (run : Int) (targets : List Target) (w : Workspace) : Prop where
  /-- There is no directory for the report, or the runner fails other than by its own trouble. -/
  | release {e : Fault} {w' : Workspace} (h : release runner targets w = (.error e, w'))
  /-- The report is too much for its reader, or no nap of the length asked for can be taken. -/
  | wait {report : Path} {code : Int} {e : Fault} {w₁ : Workspace}
    (hrelease : release runner targets w = (.ok (report, .ok code), w₁))
    (h : awaited report (laterStages runner) w₁ = .error e)
  /-- There is no outcome, and too many nodes are selected for the store, or what is to be stored
  about them cannot be. -/
  | nodes {report : Path} {result : Except Runner.Fault Int} {e : Fault} {w₁ : Workspace}
    (hrelease : release runner targets w = (.ok (report, result), w₁))
    (hout : Unreported report (laterStages runner) result w₁)
    (h : failFault? selected (troubleOf result) = some e)
  /-- There is a report, and something that it says about the nodes cannot be stored. -/
  | texts {report : Path} {code : Int} {entries : List Entry} {w₁ : Workspace}
    (hrelease : release runner targets w = (.ok (report, .ok code), w₁))
    (hfound : awaited report (laterStages runner) w₁ = .ok (some entries))
    (h : ¬Storable w₁.catalog entries (selected.take (cancelAfter.getD selected.length)))
  /-- There is a report, and too many tests below the nodes for the store. -/
  | tests {report : Path} {code : Int} {found : Results × Summary} {w₁ w₂ : Workspace}
    (hrelease : release runner targets w = (.ok (report, .ok code), w₁))
    (hcollect : collect run selected cancelAfter report (laterStages runner) w₁ =
      (.ok (some found), w₂))
    (h : ¬CountsFit found.2)

variable {runner : Runner} {ids : Option (List String)} {cancelAfter : Option Nat}
  {selected : List String} {run : Int} {targets : List Target} {report : Path} {r : RunResult}
  {result : Except Runner.Fault Int} {w w₁ w₂ w' : Workspace}

/-! ## Runs that break off -/

/-- What is to be shown of a run that breaks off: it fails, and its row is as it was entered. -/
def LeftRunning (selected : List String) (run : Int) (w : Workspace)
    (out : Except Fault RunResult × Workspace) : Prop :=
  ∃ e w', out = (.error e, w') ∧
    w'.store.runs.head? = some (startedRow run selected w.stamp)

theorem head?_of_logged (hentered : Entered selected run w w₁) (h : logged w' = logged w₁) :
    w'.store.runs.head? = some (startedRow run selected w.stamp) := by
  have hruns : w'.store.runs = w₁.store.runs := (Prod.mk.inj h).1
  rw [hruns, hentered.store]
  rfl

/-- A run is not concluded if there is a fault in failing its nodes. -/
theorem leftRunning_of_failAll {failure : Failure} {e : Fault}
    (hread : ∀ id ∈ selected, ∃ ref, NodeRef.read id = .ok ref)
    (hentered : Entered selected run w w₁) (h : failFault? selected failure = some e) :
    LeftRunning selected run w (failAll run selected failure w₁) := by
  obtain ⟨w', hfail, hkeep⟩ := failAll_of_some (w := w₁) hentered.fits hread h
  rw [hfail]
  exact ⟨_, _, rfl, head?_of_logged hentered (logged_of_unrecorded hkeep)⟩

theorem leftRunning_of_wait {code : Int} {e : Fault} (hentered : Entered selected run w w₁)
    (h : awaited report (laterStages runner) w₁ = .error e) :
    LeftRunning selected run w (conclude runner selected cancelAfter run report (.ok code) w₁) := by
  obtain ⟨w₂, hcollect, hkeep⟩ := collect_error h
  rw [conclude_of_collect_error hcollect]
  exact ⟨_, _, rfl, head?_of_logged hentered (logged_of_offDisk hkeep)⟩

theorem leftRunning_of_nodes {e : Fault} (hread : ∀ id ∈ selected, ∃ ref, NodeRef.read id = .ok ref)
    (hentered : Entered selected run w w₁)
    (hout : Unreported report (laterStages runner) result w₁)
    (h : failFault? selected (troubleOf result) = some e) :
    LeftRunning selected run w (conclude runner selected cancelAfter run report result w₁) := by
  cases result with
  | error trouble =>
    rw [conclude_trouble]
    exact leftRunning_of_failAll hread (hentered.of_offDisk rfl) h
  | ok code =>
    cases hfound : awaited report (laterStages runner) w₁ with
    | error fault => exact leftRunning_of_wait hentered hfound
    | ok entries =>
      obtain rfl := (unreported_iff hfound).1 hout
      obtain ⟨w₂, hcollect, hkeep⟩ := collect_none hfound
      rw [conclude_of_collect_none hcollect]
      exact leftRunning_of_failAll hread (hentered.of_offDisk hkeep) h

section Known

variable (hc : w.catalog.Parsed) (hids : ∀ id ∈ ids.getD [], w.catalog.IsNode id)
  (hselect : w.catalog.select ids = .ok selected)

include hc hids hselect

/-- A report that has been found is applied exactly if all that it says can be stored. -/
theorem collect_cases {entries : List Entry} (hentered : Entered selected run w w₁)
    (hfound : awaited report (laterStages runner) w₁ = .ok (some entries)) :
    (Storable w₁.catalog entries (selected.take (cancelAfter.getD selected.length)) ∧
      ∃ found w', collect run selected cancelAfter report (laterStages runner) w₁ =
        (.ok (some found), w')) ∨
    (¬Storable w₁.catalog entries (selected.take (cancelAfter.getD selected.length)) ∧
      ∃ f w', collect run selected cancelAfter report (laterStages runner) w₁ =
        (.error (.unencodable f), w')) := by
  obtain ⟨w₂, hkeep, hcollect⟩ := collect_some hfound
  have hcatalog : w₂.catalog = w.catalog := (hentered.of_offDisk hkeep).catalog
  have hagain := Catalog.select_of_sublist hselect (List.Sublist.refl selected)
  have hnodes : ∀ id ∈ (some selected).getD [], w.catalog.IsNode id :=
    Catalog.isNode_of_select hc hids hselect
  rw [hentered.catalog]
  rw [← hcatalog] at hc hagain hnodes ⊢
  have hfits : (some run).all Store.fits = true := hentered.fits
  rcases applyReport_cases entries cancelAfter hc hnodes hagain hfits with
    ⟨hstorable, found, w', happly⟩ | ⟨hunstorable, f, w', happly⟩
  · exact .inl ⟨hstorable, found, _, hcollect _ _ happly⟩
  · exact .inr ⟨hunstorable, f, _, hcollect _ _ happly⟩

/-- A run that breaks off has no way to finish its row. -/
theorem leftRunning_of_breaksOff (hentered : Entered selected run w w₁)
    (h : BreaksOff runner selected cancelAfter run targets w₁) :
    LeftRunning selected run w ((release runner targets >>= fun l =>
      conclude runner selected cancelAfter run l.1 l.2) w₁) := by
  have hread := Catalog.exists_read_of_select hselect
  cases h with
  | release h =>
    rw [Action.bind_error h]
    exact ⟨_, _, rfl, head?_of_logged (hentered.of_release h) rfl⟩
  | wait hrelease h =>
    rw [Action.bind_ok hrelease]
    exact leftRunning_of_wait (hentered.of_release hrelease) h
  | nodes hrelease hout h =>
    rw [Action.bind_ok hrelease]
    exact leftRunning_of_nodes hread (hentered.of_release hrelease) hout h
  | texts hrelease hfound h =>
    have hentered₁ := hentered.of_release hrelease
    rw [Action.bind_ok hrelease]
    rcases collect_cases hc hids hselect hentered₁ hfound with ⟨hstorable, -⟩ |
      ⟨-, f, w₂, hcollect⟩
    · exact absurd hstorable h
    · rw [conclude_of_collect_error hcollect]
      exact ⟨_, _, rfl, head?_of_logged hentered₁ ((keeps_collect _ _ _ _ _).apply hcollect)⟩
  | tests hrelease hcollect h =>
    rw [Action.bind_ok hrelease, conclude_of_collect_some hcollect, finish_error h]
    exact ⟨_, _, rfl, head?_of_logged (hentered.of_release hrelease)
      ((keeps_collect _ _ _ _ _).apply hcollect)⟩

/-! ## Runs that do not -/

/-- A run that does not break off gives a result. -/
theorem exists_result (hentered : Entered selected run w w₁)
    (h : ¬BreaksOff runner selected cancelAfter run targets w₁) :
    ∃ r w', (release runner targets >>= fun l =>
      conclude runner selected cancelAfter run l.1 l.2) w₁ = (.ok r, w') := by
  have hread := Catalog.exists_read_of_select hselect
  rcases hrelease : release runner targets w₁ with ⟨e | ⟨report, result⟩, w₂⟩
  · exact absurd (.release hrelease) h
  have hentered₂ : Entered selected run w w₂ := hentered.of_release hrelease
  have hnodes : Unreported report (laterStages runner) result w₂ →
      failFault? selected (troubleOf result) = none := fun hout =>
    Option.eq_none_iff_forall_ne_some.2 fun e he => h (.nodes hrelease hout he)
  rw [Action.bind_ok hrelease]
  cases result with
  | error trouble =>
    rw [conclude_trouble]
    exact ⟨_, _, failAll_of_none hentered.fits hread (hnodes (.inl ⟨trouble, rfl⟩))⟩
  | ok code =>
    rcases hfound : awaited report (laterStages runner) w₂ with e | ⟨_ | entries⟩
    · exact absurd (.wait hrelease hfound) h
    · obtain ⟨w₃, hcollect, -⟩ := collect_none hfound
      rw [conclude_of_collect_none hcollect]
      exact ⟨_, _, failAll_of_none hentered.fits hread (hnodes ((unreported_iff hfound).2 rfl))⟩
    · rcases collect_cases hc hids hselect hentered₂ hfound with ⟨-, found, w₃, hcollect⟩ |
        ⟨hunstorable, -⟩
      · have hcounts : CountsFit found.2 :=
          Classical.not_not.1 fun hbig => h (.tests hrelease hcollect hbig)
        obtain ⟨status, hfinish⟩ := finish_ok hentered.fits hcounts
        rw [conclude_of_collect_some hcollect]
        exact ⟨_, _, hfinish⟩
      · exact absurd (.texts hrelease hfound hunstorable) h

end Known

end FeatureRun.Run
