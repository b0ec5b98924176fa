import FeatureRun.Console.Dispatch
import FeatureRun.Proofs.Except
import FeatureRun.Proofs.Run.Faults
import FeatureRun.Proofs.Run.Readable
import FeatureRun.Proofs.Workspace.Session

/-!
# How commands end

A command on a workspace either tells the user how it went, or it ends with a fault that it does not
handle. Opening the session reports the faults of settings only. Mapping a report handles all faults
but a lack of room, and running handles none once the targets have been read. Nothing handles a text
that cannot be printed.

* `Told`: the command ended well, or the user has been told what is wrong.
* `Escapes`: the faults that a command does not handle, and what brings them about.
* `ending_fault_iff`, `told_of_none`: commands end in these two ways.
* `shown_of_legible`: what is printed about results needs no id that cannot be read.
-/
set_option autoImplicit false

namespace FeatureRun.Console

open Workspace (openSession start Shut)

/-- The command ended well, or it failed and told the user what is wrong, on a line of its own after
a cross, or how it is used. -/
def Printed.Told (p : Printed) : Prop :=
  p.ending = .exit 0 ∨ p.ending = .exit 1 ∧
    ((∃ message, cross message ∈ p.out ++ p.err) ∨ usage ∈ p.out ∨
      ∃ use, "Usage: " ++ use ∈ p.err)

/-- The commands that open a session and close it again. -/
def Command.opensSession : Command → Bool
  | .discover => true
  | .run _ => true
  | .results _ _ => true
  | .status => true
  | _ => false

/-- The commands that neither set up a workspace nor watch one. -/
def Command.isOrdinary : Command → Bool
  | .init => false
  | .watch => false
  | _ => true

/-- The faults that a command does not handle. -/
inductive Escapes (runner : Runner) (events : Events) (m : Machine) : Command → Fault → Prop where
  /-- No session can be opened, but not because of what the settings say. -/
  | shut {c : Command} {e : Fault} (hc : c.opensSession = true) (h : Shut m e)
    (hkind : e.kind ≠ .settings) : Escapes runner events m c e
  /-- The targets have been read, but running them fails. -/
  | run {targets : List String} {ids : Option (List String)} {e : Fault} {w : Workspace}
    (hopen : openSession (start m) = (.ok (), w)) (htargets : readTargets w targets = .ok ids)
    (h : Run.Fails runner ids none w e) : Escapes runner events m (.run targets) e
  /-- There is no room for an import. -/
  | results {report : String} {targets : List String} {ids : Option (List String)} {e : Fault}
    {w : Workspace} (hopen : openSession (start m) = (.ok (), w))
    (htargets : readTargets w targets = .ok ids) (h : Run.Refuses report ids w e)
    (hroom : Run.NoRoom e) : Escapes runner events m (.results report targets) e
  /-- The store cannot be asked for the results of a file. -/
  | status {e : Fault} {w : Workspace} (hopen : openSession (start m) = (.ok (), w))
    (h : w.readStored = .error e) : Escapes runner events m .status e
  /-- The store cannot be told of the file that is to be forgotten. -/
  | reset {path : String} {f : Text.EncodeFault}
    (hstore : m.disk.exists? (storeFile (Path.ofString m.directory)) = true)
    (h : Text.encodeFault? (m.fileId ((Path.ofString m.directory).join (.ofString path)).toString) =
      some f) : Escapes runner events m (.reset (some path)) (.unencodable f)
  /-- Something is to be printed that cannot be. -/
  | output {c : Command} {f : Text.EncodeFault}
    (h : (c.act runner events m).1.out.findSome? Text.encodeFault? = some f) :
    Escapes runner events m c (.unencodable f)

variable {runner : Runner} {events : Events} {m : Machine} {c : Command} {e : Fault}
  {w : Workspace} {targets : List String} {report : String}

/-! ## Targets -/

/-- A target in a file that can be read is either found or a bad value. -/
theorem kind_of_readTarget {t : TargetFault} {spec : String}
    (htext : ∀ file f, w.catalog.get? file = some f →
      ∃ text, w.disk.readText (.ofString file) file = .ok text)
    (h : w.catalog.readTarget w.disk w.root spec = .error t) : Fault.kindOfTarget t = .value := by
  rw [Catalog.readTarget] at h
  rcases hsplit : Catalog.splitTarget spec with n | ⟨path, line⟩
  · simp only [hsplit] at h
    cases h
    rfl
  simp only [hsplit] at h
  rcases hget : w.catalog.get? (Catalog.fileOf w.root path) with _ | f
  · simp only [hget] at h
    cases h
    rfl
  obtain ⟨text, hread⟩ := htext _ f hget
  cases line with
  | none =>
    simp only [hget] at h
    nomatch h
  | some line =>
    simp only [hget, hread] at h
    split at h
    · nomatch h
    split at h
    · cases h
      rfl
    · nomatch h
    · cases h
      rfl

/-- In an opened session targets are read, or one of them is a bad value. -/
theorem kind_of_readTargets (hopen : openSession (start m) = (.ok (), w)) {t : TargetFault}
    (h : readTargets w targets = .error t) : Fault.kind (.target t) = .value := by
  rw [readTargets] at h
  split at h
  · nomatch h
  obtain ⟨spec, -, hspec⟩ := exists_of_mapM_error (error_of_map_error h)
  exact kind_of_readTarget (fun _ _ => Workspace.exists_text_of_openSession hopen) hspec

/-! ## Sessions -/

theorem withSession_of_openSession {command : Workspace → Printed × Workspace}
    (hopen : openSession (start m) = (.ok (), w)) : (withSession m command).1 = (command w).1 := by
  unfold withSession
  simp only [Action.run_apply, hopen]

/-- A fault in opening a session is reported if it is one of settings. -/
theorem withSession_of_shut (command : Workspace → Printed × Workspace) (h : Shut m e) :
    (withSession m command).1 = if e.kind = .settings then
      .refused (cross ("Config error: " ++ e.message)) else .escaped e := by
  obtain ⟨w, hopen⟩ := Workspace.openSession_error_iff.2 h
  unfold withSession
  simp only [Action.run_apply, hopen]
  split <;> rfl

theorem told_done (out : List String) : (Printed.done out).Told := .inl rfl

theorem told_refused (message : String) : (Printed.refused (cross message)).Told :=
  .inr ⟨rfl, .inl ⟨message, List.mem_singleton_self _⟩⟩

/-- The lines about results say that they failed if they did. -/
theorem told_results (w : Workspace) (r : RunResult) (more : List String) :
    Printed.Told ⟨resultLines w.catalog r ++ more, [], .exit (exitCode r.success)⟩ := by
  cases hsuccess : r.success with
  | true => exact .inl rfl
  | false =>
    have hlast : cross r.message ∈ resultLines w.catalog r := by
      refine List.mem_append_right _ ?_
      rw [hsuccess]
      exact List.mem_singleton_self _
    exact .inr ⟨rfl, .inl ⟨r.message,
      List.mem_append_left [] (List.mem_append_left more hlast)⟩⟩

/-! ## Commands in a session -/

/-- How a command that runs targets ends. -/
theorem runTargets_cases (runner : Runner) (targets : List String)
    (hopen : openSession (start m) = (.ok (), w)) :
    (runTargets runner targets w).1.Told ∨
    ∃ ids e, readTargets w targets = .ok ids ∧ Run.Fails runner ids none w e ∧
      (runTargets runner targets w).1 = .escaped e := by
  rw [runTargets]
  cases htargets : readTargets w targets with
  | error t =>
    have hkind := kind_of_readTargets hopen htargets
    refine .inl ?_
    simp only [reported, hkind]
    exact told_refused _
  | ok ids =>
    simp only [Action.run_apply]
    rcases hrun : Workspace.run runner ids none w with ⟨e | r, w'⟩
    · exact .inr ⟨ids, e, rfl, Run.run_error_iff.1 ⟨w', hrun⟩, rfl⟩
    · exact .inl (told_results w' r _)

/-- How a command that maps a report ends. -/
theorem importTargets_cases (report : String) (targets : List String)
    (hopen : openSession (start m) = (.ok (), w)) :
    (importTargets report targets w).1.Told ∨
    ∃ ids e, readTargets w targets = .ok ids ∧ Run.Refuses report ids w e ∧
      Run.NoRoom e ∧ (importTargets report targets w).1 = .escaped e := by
  rw [importTargets]
  cases htargets : readTargets w targets with
  | error t =>
    have hkind := kind_of_readTargets hopen htargets
    refine .inl ?_
    simp only [reported, hkind]
    exact told_refused _
  | ok ids =>
    simp only [Action.run_apply]
    rcases himport : Workspace.importReport report ids w with ⟨e | r, w'⟩
    · have hrefuses := Run.importReport_error_iff.1 ⟨w', himport⟩
      rcases hrefuses.cases with hhandled | hroom
      · refine .inl ?_
        simp only [reported, if_pos hhandled]
        exact told_refused _
      · refine .inr ⟨ids, e, rfl, hrefuses, hroom, ?_⟩
        rcases hroom with rfl | rfl | ⟨levels, rfl⟩ <;> rfl
    · have htold := told_results w' r []
      rw [List.append_nil] at htold
      exact .inl htold

/-! ## All commands -/

/-- The part of a command that is carried out in a session. -/
def Command.inSession (runner : Runner) : Command → Workspace → Printed × Workspace
  | .discover => fun w => (.done (discovered w), w)
  | .run targets => runTargets runner targets
  | .results report targets => importTargets report targets
  | _ => fun w => (known w, w)

theorem act_of_opensSession (events : Events) (h : c.opensSession = true) :
    c.act runner events m = withSession m (c.inSession runner) := by
  cases c with
  | discover => simp only [Command.act, discover, Command.inSession]
  | run targets => simp only [Command.act, run, Command.inSession]
  | results report targets => simp only [Command.act, results, Command.inSession]
  | status => simp only [Command.act, status, Command.inSession]
  | _ => nomatch h

/-- How a command is carried out in a session that is open. -/
theorem inSession_cases (events : Events) (hc : c.opensSession = true)
    (hopen : openSession (start m) = (.ok (), w)) :
    (c.inSession runner w).1.Told ∨
      ∃ e, Escapes runner events m c e ∧ (c.inSession runner w).1 = .escaped e := by
  cases c with
  | discover => exact .inl (told_done _)
  | run targets =>
    refine (runTargets_cases runner targets hopen).imp_right ?_
    rintro ⟨ids, e, htargets, hfails, hend⟩
    exact ⟨e, .run hopen htargets hfails, hend⟩
  | results report targets =>
    refine (importTargets_cases report targets hopen).imp_right ?_
    rintro ⟨ids, e, htargets, hrefuses, hroom, hend⟩
    exact ⟨e, .results hopen htargets hrefuses hroom, hend⟩
  | status =>
    cases hstored : w.readStored with
    | error e =>
      refine .inr ⟨e, .status hopen hstored, ?_⟩
      change known w = _
      rw [known, hstored]
    | ok results =>
      refine .inl ?_
      change (known w).Told
      rw [known, hstored]
      exact told_done _
  | _ => nomatch hc

/-- A command either tells the user how it went, or it comes to a fault that it does not handle. -/
theorem act_cases (runner : Runner) (events : Events) (m : Machine) (hc : c.isOrdinary = true) :
    (c.act runner events m).1.Told ∨
      ∃ e, Escapes runner events m c e ∧ (c.act runner events m).1 = .escaped e := by
  by_cases hopens : c.opensSession = true
  · rw [act_of_opensSession events hopens]
    rcases hopen : openSession (start m) with ⟨e | ⟨⟩, w⟩
    · have hshut := Workspace.openSession_error_iff.1 ⟨w, hopen⟩
      rw [withSession_of_shut _ hshut]
      by_cases hkind : e.kind = .settings
      · rw [if_pos hkind]
        exact .inl (told_refused _)
      · rw [if_neg hkind]
        exact .inr ⟨e, .shut hopens hshut hkind, rfl⟩
    · rw [withSession_of_openSession hopen]
      exact inSession_cases events hopens hopen
  · cases c with
    | resultsWithout =>
      have huse : "Usage: cuke results <report.json> [path[:line] ...]" =
          "Usage: " ++ "cuke results <report.json> [path[:line] ...]" := by decide
      exact .inl (.inr ⟨rfl, .inr (.inr ⟨_, List.mem_singleton.2 huse.symm⟩)⟩)
    | reset path =>
      simp only [Command.act, reset]
      split
      · rename_i hstore
        cases path with
        | none => exact .inl (told_done _)
        | some p =>
          dsimp only
          split
          · rename_i f hf
            exact .inr ⟨_, .reset hstore hf, rfl⟩
          · exact .inl (told_done _)
      · exact .inl (told_done _)
    | help => exact .inl (told_done _)
    | unknown word => exact .inl (.inr ⟨rfl, .inr (.inl (List.mem_singleton_self _))⟩)
    | init => nomatch hc
    | watch => nomatch hc
    | _ => exact absurd rfl hopens

/-- If all of it gets out, a command ends as it was carried out, -/
theorem perform_of_none (h : (c.act runner events m).1.out.findSome? Text.encodeFault? = none) :
    (c.perform runner events m).1 = (c.act runner events m).1 := by
  simp only [Command.perform, Printed.encoded, h]

/-- and else with the fault of printing. -/
theorem ending_perform_of_some {f : Text.EncodeFault}
    (h : (c.act runner events m).1.out.findSome? Text.encodeFault? = some f) :
    (c.perform runner events m).1.ending = .fault (.unencodable f) := by
  simp only [Command.perform, Printed.encoded, h]

theorem perform_of_escaped (h : (c.act runner events m).1 = .escaped e) :
    (c.perform runner events m).1 = .escaped e := by
  rw [perform_of_none (by rw [h]; rfl), h]

/-- A command either tells the user how it went, or it ends with a fault that it does not handle. -/
theorem perform_cases (runner : Runner) (events : Events) (m : Machine)
    (hc : c.isOrdinary = true) : (c.perform runner events m).1.Told ∨
      ∃ e, Escapes runner events m c e ∧ (c.perform runner events m).1.ending = .fault e := by
  cases hout : (c.act runner events m).1.out.findSome? Text.encodeFault? with
  | some f => exact .inr ⟨_, .output hout, ending_perform_of_some hout⟩
  | none =>
    rw [perform_of_none hout]
    refine (act_cases runner events m hc).imp_right ?_
    rintro ⟨e, h, hend⟩
    exact ⟨e, h, by rw [hend]; rfl⟩

/-- A fault that escapes is how the command ends. -/
theorem ending_of_escapes (h : Escapes runner events m c e) :
    (c.perform runner events m).1.ending = .fault e := by
  have hescaped : (c.act runner events m).1 = .escaped e →
      (c.perform runner events m).1.ending = .fault e := fun h => by rw [perform_of_escaped h]; rfl
  cases h with
  | shut hc h hkind =>
    refine hescaped ?_
    rw [act_of_opensSession events hc, withSession_of_shut _ h, if_neg hkind]
  | run hopen htargets h =>
    obtain ⟨w', hrun⟩ := Run.run_error_iff.2 h
    refine hescaped ?_
    rw [act_of_opensSession events rfl, withSession_of_openSession hopen, Command.inSession,
      runTargets]
    simp only [htargets, Action.run_apply, hrun]
  | results hopen htargets h hroom =>
    obtain ⟨w', himport⟩ := Run.importReport_error_iff.2 h
    refine hescaped ?_
    rw [act_of_opensSession events rfl, withSession_of_openSession hopen, Command.inSession,
      importTargets]
    simp only [htargets, Action.run_apply, himport]
    rcases hroom with rfl | rfl | ⟨levels, rfl⟩ <;> rfl
  | status hopen h =>
    refine hescaped ?_
    rw [act_of_opensSession events rfl, withSession_of_openSession hopen]
    change known _ = _
    rw [known, h]
  | reset hstore h =>
    refine hescaped ?_
    simp only [Command.act, reset, if_pos hstore, h]
  | output h => exact ending_perform_of_some h

theorem Printed.Told.not_fault {p : Printed} (h : p.Told) : p.ending ≠ .fault e := by
  intro hfault
  rcases h with h | ⟨h, -⟩ <;> nomatch hfault.symm.trans h

/-- A command ends with a fault exactly if it does not handle it. -/
theorem ending_fault_iff (hc : c.isOrdinary = true) :
    (c.perform runner events m).1.ending = .fault e ↔ Escapes runner events m c e := by
  refine ⟨fun hfault => ?_, ending_of_escapes⟩
  rcases perform_cases runner events m hc with htold | ⟨e', h, hend⟩
  · exact absurd hfault htold.not_fault
  · rw [hend] at hfault
    cases hfault
    exact h

/-- Where no fault escapes, the user is told how the command went. -/
theorem told_of_none (hc : c.isOrdinary = true) (hnone : ∀ e, ¬Escapes runner events m c e) :
    (c.perform runner events m).1.Told :=
  (perform_cases runner events m hc).resolve_right fun ⟨e, h, _⟩ => hnone e h

/-! ## Results on the screen -/

/-- The results of a run or an import are shown by their files and labels: no id stands for
itself because it cannot be read. -/
theorem shown_of_legible (hc : w.catalog.LinesFit) {ids : Option (List String)} {r : RunResult}
    {w' : Workspace} (h : Workspace.run runner ids none w = (.ok r, w') ∨
      Workspace.importReport report ids w = (.ok r, w')) :
    ∀ id ∈ r.results.keys, (∃ ref, NodeRef.read id = .ok ref ∧ fileOfId id = ref.file) ∧
      ∀ c : Catalog, c.label id = .ok (labelOf c id) := by
  have hlegible : Run.Legible r.results :=
    h.elim (Run.legible_of_run hc) (Run.legible_of_importReport hc)
  intro id hid
  obtain ⟨ref, href⟩ := hlegible id hid
  refine ⟨⟨ref, href, by rw [fileOfId, href]⟩, fun c => ?_⟩
  rw [labelOf, Catalog.label, Catalog.resolve, href]
  rfl

end FeatureRun.Console
