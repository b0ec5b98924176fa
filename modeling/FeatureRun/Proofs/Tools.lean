import FeatureRun.Proofs.Console
import FeatureRun.Tools

/-!
# How tools answer

Every tool answers with a JSON object. If anything fails in its work, the object holds the error and
nothing else; only listing the nodes passes a fault on. So a caller is always told what went wrong,
but for that fault and those that a command does not handle.

* `Tool.work`: what a tool does in a session, before it is put into words.
* `Answers`: the text is the JSON for what has come of the work.
* `told_and_answered`: how commands and tools end.
-/
set_option autoImplicit false

namespace FeatureRun

open Workspace (openSession start)

namespace Tools

inductive Tool where
  | discover
  | run (targets : List String)
  | results (report : String) (targets : List String)
  | status

def Tool.perform (runner : Runner) (m : Machine) : Tool → Except Fault String × Machine
  | .discover => Tools.discover m
  | .run targets => Tools.run runner targets m
  | .results report targets => Tools.results report targets m
  | .status => Tools.status m

/-- What a tool does in a session, before it is put into words. -/
def Tool.work (runner : Runner) : Tool → Action Json
  | .discover => do Action.ofExcept id (discovered (← get))
  | .run targets => do
    let ids ← Action.ofExcept id (targetIds (← get) targets)
    let r ← Workspace.run runner ids none
    return .obj (runFields r ++ [statusField (← get)])
  | .results report targets => do
    let ids ← Action.ofExcept id (targetIds (← get) targets)
    let r ← Workspace.importReport report ids
    return .obj (runFields r)
  | .status => do Action.ofExcept id (known (← get))

/-- What comes of the work of a tool in a session that is opened for it. -/
def Tool.outcome (runner : Runner) (m : Machine) (t : Tool) : Except Fault Json :=
  ((openSession >>= fun _ => t.work runner) (start m)).1

/-- The text is the JSON for an outcome: an object, with an error in it if the work has failed. -/
def Answers : Except Fault Json → String → Prop
  | .ok v, text => Json.document .unlimited text.toList = .ok v ∧
    ∃ fields, v = .obj fields ∧ "error" ∉ fields.map Prod.fst
  | .error e, text => Json.document .unlimited text.toList = .ok (.obj [("error", .str e.message)])

/-- The ids of the nodes of some discovered feature cannot all be read. -/
def Unreadable (m : Machine) : Prop :=
  ∃ w f e, openSession (start m) = (.ok (), w) ∧ f ∈ w.catalog.sorted ∧
    w.catalog.descendants f.path = .error e

variable {runner : Runner} {m : Machine} {t : Tool} {e : Fault} {w : Workspace} {v : Json}

/-! ## What is answered -/

theorem plain_summaryFields (s : Summary) : ∀ f ∈ summaryFields s, f.2.Plain := by
  simp only [summaryFields, List.forall_mem_cons]
  exact ⟨.int _, .int _, .int _, .int _, nofun⟩

theorem plain_resultFields (r : Result) : ∀ f ∈ resultFields r, f.2.Plain := by
  simp only [resultFields, List.forall_mem_cons]
  exact ⟨.str _, Store.plain_failures _, nofun⟩

theorem plain_runFields (r : RunResult) : ∀ f ∈ runFields r, f.2.Plain := by
  simp only [runFields, List.forall_mem_cons]
  refine ⟨.bool _, .str _, .obj (plain_summaryFields _), .obj fun f hf => ?_,
    List.forall_mem_nil _⟩
  obtain ⟨⟨id, res⟩, -, rfl⟩ := List.mem_map.1 hf
  exact .obj (plain_resultFields res)

theorem plain_strings (ss : List String) : (Json.arr (ss.map .str)).Plain := by
  refine .arr fun v hv => ?_
  obtain ⟨s, -, rfl⟩ := List.mem_map.1 hv
  exact .str s

theorem plain_entryJson (r : RunEntry) : (entryJson r).Plain := by
  refine .obj ?_
  simp only [List.forall_mem_cons]
  refine ⟨.int _, plain_strings _, .str _, .int _, .int _, .int _, .int _, .str _, ?_, nofun⟩
  cases r.finished
  · exact .null
  · exact .str _

/-- A value of which the answer can be made. -/
def Answerable (v : Json) : Prop :=
  v.Plain ∧ ∃ fields, v = .obj fields ∧ "error" ∉ fields.map Prod.fst

theorem answerable_run (r : RunResult) (w : Workspace) :
    Answerable (.obj (runFields r ++ [statusField w])) := by
  refine ⟨.obj (List.forall_mem_append.2 ⟨plain_runFields r, ?_⟩), _, rfl,
    by simp [runFields, statusField]⟩
  simp only [List.forall_mem_cons]
  exact ⟨.str _, nofun⟩

theorem answerable_import (r : RunResult) : Answerable (.obj (runFields r)) :=
  ⟨.obj (plain_runFields r), _, rfl, by simp [runFields]⟩

theorem plain_discoveredFeature {f : Feature} (h : discoveredFeature w f = .ok v) : v.Plain := by
  rw [discoveredFeature] at h
  split at h
  · nomatch h
  · cases h
    refine .obj ?_
    simp only [List.forall_mem_cons]
    exact ⟨.str _, .str _, plain_strings _, nofun⟩

theorem answerable_discovered (h : discovered w = .ok v) : Answerable v := by
  obtain ⟨features, hfeatures, rfl⟩ := exists_of_map_ok h
  refine ⟨.obj ?_, _, rfl, by simp [statusField]⟩
  simp only [List.forall_mem_cons]
  refine ⟨.arr fun v hv => ?_, .int _, .str _, nofun⟩
  obtain ⟨f, -, hf⟩ := (of_mapM_ok hfeatures).2 v hv
  exact plain_discoveredFeature hf

theorem plain_nodeJson {results : Results} {id : String} (h : nodeJson w results id = .ok v) :
    v.Plain := by
  rw [nodeJson] at h
  split at h
  · nomatch h
  · cases h
    refine .obj (List.forall_mem_append.2 ⟨?_, plain_resultFields _⟩)
    simp only [List.forall_mem_cons]
    exact ⟨.str _, .str _, nofun⟩

theorem plain_featureJson {results : Results} {f : Feature} (h : featureJson w results f = .ok v) :
    v.Plain := by
  rw [featureJson] at h
  obtain ⟨ids, -, h⟩ := exists_of_bind_ok h
  obtain ⟨nodes, hnodes, h⟩ := exists_of_bind_ok h
  cases h
  refine .obj ?_
  simp only [List.forall_mem_cons]
  refine ⟨.str _, .obj (plain_summaryFields _), .arr fun v hv => ?_, nofun⟩
  obtain ⟨id, -, hid⟩ := (of_mapM_ok hnodes).2 v hv
  exact plain_nodeJson hid

theorem answerable_known (h : known w = .ok v) : Answerable v := by
  obtain ⟨results, -, h⟩ := exists_of_bind_ok h
  obtain ⟨features, hfeatures, h⟩ := exists_of_bind_ok h
  cases h
  refine ⟨.obj ?_, _, rfl, by simp [statusField]⟩
  simp only [List.forall_mem_cons]
  refine ⟨.arr fun v hv => ?_, .arr fun v hv => ?_, .str _, nofun⟩
  · obtain ⟨f, -, hf⟩ := (of_mapM_ok hfeatures).2 v hv
    exact plain_featureJson hf
  · obtain ⟨r, -, rfl⟩ := List.mem_map.1 hv
    exact plain_entryJson r

/-- Whatever a tool finds out can be answered. -/
theorem answerable_work {w' : Workspace} (h : t.work runner w = (.ok v, w')) : Answerable v := by
  cases t with
  | discover =>
    rw [Tool.work, Action.bind_ok Action.get_apply] at h
    exact answerable_discovered (Action.of_ofExcept_ok h).1
  | run targets =>
    obtain ⟨_, _, -, h⟩ := Action.exists_of_bind_ok h
    obtain ⟨_, _, -, h⟩ := Action.exists_of_bind_ok h
    obtain ⟨r, _, -, h⟩ := Action.exists_of_bind_ok h
    cases h
    exact answerable_run r _
  | results report targets =>
    obtain ⟨_, _, -, h⟩ := Action.exists_of_bind_ok h
    obtain ⟨_, _, -, h⟩ := Action.exists_of_bind_ok h
    obtain ⟨r, _, -, h⟩ := Action.exists_of_bind_ok h
    cases h
    exact answerable_import r
  | status =>
    rw [Tool.work, Action.bind_ok Action.get_apply] at h
    exact answerable_known (Action.of_ofExcept_ok h).1

theorem answers_pretty (h : Answerable v) : Answers (.ok v) (Json.pretty v) :=
  ⟨Json.document_pretty h.1, h.2⟩

theorem answers_errorText (e : Fault) : Answers (.error e) (errorText e) := by
  refine Json.document_line (.obj ?_)
  simp only [List.forall_mem_cons]
  exact ⟨.str _, nofun⟩

/-! ## Sessions -/

/-- What a tool does in a session, put into words. -/
def Tool.inSession (runner : Runner) : Tool → Workspace → Except Fault String × Workspace
  | .discover => fun w => ((discovered w).map Json.pretty, w)
  | .run targets => runTargets runner targets
  | .results report targets => importTargets report targets
  | .status => fun w => (answer (known w), w)

theorem perform_eq_withSession (runner : Runner) (m : Machine) (t : Tool) :
    t.perform runner m = withSession m (t.inSession runner) := by
  cases t with
  | discover => simp only [Tool.perform, discover, Tool.inSession]
  | run targets => simp only [Tool.perform, run, Tool.inSession]
  | results report targets => simp only [Tool.perform, results, Tool.inSession]
  | status => simp only [Tool.perform, status, Tool.inSession]

theorem withSession_of_openSession {tool : Workspace → Except Fault String × Workspace}
    (hopen : openSession (start m) = (.ok (), w)) : (withSession m tool).1 = (tool w).1 := by
  unfold withSession
  simp only [Action.run_apply, hopen]

theorem withSession_of_error {tool : Workspace → Except Fault String × Workspace}
    (hopen : openSession (start m) = (.error e, w)) :
    (withSession m tool).1 = .ok (errorText e) := by
  unfold withSession
  simp only [Action.run_apply, hopen]

theorem outcome_of_openSession (hopen : openSession (start m) = (.ok (), w)) :
    t.outcome runner m = (t.work runner w).1 := by
  rw [Tool.outcome, Action.bind_ok hopen]

theorem outcome_of_error (hopen : openSession (start m) = (.error e, w)) :
    t.outcome runner m = .error e := by
  rw [Tool.outcome, Action.bind_error hopen]

/-- A tool answers with what comes of its work, unless it lists the nodes. -/
theorem inSession_eq (h : t ≠ .discover) :
    (t.inSession runner w).1 = answer (t.work runner w).1 := by
  cases t with
  | discover => exact absurd rfl h
  | run targets =>
    rw [Tool.inSession, runTargets, Tool.work, Action.bind_ok Action.get_apply]
    cases hids : targetIds w targets with
    | error e => rfl
    | ok ids =>
      rw [Action.bind_ok (Action.ofExcept_ok _ _)]
      simp only [Action.run_apply]
      rcases hrun : Workspace.run runner ids none w with ⟨e | r, w'⟩
      · rw [Action.bind_error hrun]
        rfl
      · rw [Action.bind_ok hrun, Action.bind_ok Action.get_apply]
        rfl
  | results report targets =>
    rw [Tool.inSession, importTargets, Tool.work, Action.bind_ok Action.get_apply]
    cases hids : targetIds w targets with
    | error e => rfl
    | ok ids =>
      rw [Action.bind_ok (Action.ofExcept_ok _ _)]
      simp only [Action.run_apply]
      rcases himport : Workspace.importReport report ids w with ⟨e | r, w'⟩
      · rw [Action.bind_error himport]
        rfl
      · rw [Action.bind_ok himport]
        rfl
  | status =>
    rw [Tool.inSession, Tool.work, Action.bind_ok Action.get_apply]
    cases hv : known w <;> simp only [hv] <;> rfl

/-! ## Listing the nodes -/

theorem work_discover (runner : Runner) (w : Workspace) :
    (Tool.discover.work runner w).1 = discovered w := by
  rw [Tool.work, Action.bind_ok Action.get_apply]
  cases discovered w <;> rfl

theorem inSession_discover (runner : Runner) (w : Workspace) :
    (Tool.discover.inSession runner w).1 = (discovered w).map Json.pretty := by
  simp only [Tool.inSession]

/-- The nodes cannot be listed exactly if those of one feature cannot. -/
theorem discovered_error_iff : (∃ e, discovered w = .error e) ↔
    ∃ f ∈ w.catalog.sorted, ∃ e, w.catalog.descendants f.path = .error e := by
  have hfeature : ∀ f, (∃ e, discoveredFeature w f = .error e) ↔
      ∃ e, w.catalog.descendants f.path = .error e := by
    intro f
    rw [discoveredFeature]
    cases w.catalog.descendants f.path with
    | error e => exact ⟨fun _ => ⟨e, rfl⟩, fun _ => ⟨_, rfl⟩⟩
    | ok ids => exact ⟨nofun, nofun⟩
  constructor
  · rintro ⟨e, h⟩
    obtain ⟨f, hf, hfails⟩ := exists_of_mapM_error (error_of_map_error h)
    exact ⟨f, hf, (hfeature f).1 ⟨e, hfails⟩⟩
  · rintro ⟨f, hf, hfails⟩
    obtain ⟨e, he⟩ := (hfeature f).2 hfails
    cases hv : discovered w with
    | error e => exact ⟨e, rfl⟩
    | ok v =>
      obtain ⟨features, hfeatures, -⟩ := exists_of_map_ok hv
      obtain ⟨v, -, hv⟩ := (of_mapM_ok hfeatures).1 f hf
      nomatch he.symm.trans hv

theorem discover_error_iff (runner : Runner) (m : Machine) :
    (∃ e, (Tool.discover.perform runner m).1 = .error e) ↔ Unreadable m := by
  rw [perform_eq_withSession]
  rcases hopen : openSession (start m) with ⟨e | ⟨⟩, w⟩
  · rw [withSession_of_error hopen]
    refine ⟨nofun, ?_⟩
    rintro ⟨w', f, e', hopen', -⟩
    nomatch hopen.symm.trans hopen'
  · rw [withSession_of_openSession hopen, inSession_discover, Unreadable]
    have hmap : (∃ e, (discovered w).map Json.pretty = .error e) ↔
        ∃ e, discovered w = .error e := by
      cases discovered w with
      | error e => exact ⟨fun _ => ⟨e, rfl⟩, fun _ => ⟨e, rfl⟩⟩
      | ok v => exact ⟨nofun, nofun⟩
    rw [hmap, discovered_error_iff]
    constructor
    · rintro ⟨f, hf, e, he⟩
      exact ⟨w, f, e, hopen, hf, he⟩
    · rintro ⟨w', f, e, hopen', hf, he⟩
      cases hopen.symm.trans hopen'
      exact ⟨f, hf, e, he⟩

/-! ## All tools -/

theorem answers_answer {r : Except Fault Json} (h : ∀ v, r = .ok v → Answerable v) :
    ∃ text, answer r = .ok text ∧ Answers r text := by
  cases r with
  | error e => exact ⟨_, rfl, answers_errorText e⟩
  | ok v => exact ⟨_, rfl, answers_pretty (h v rfl)⟩

/-- A tool answers with what has come of its work, unless nodes are to be listed whose ids cannot be
read. -/
theorem exists_answer (runner : Runner) (m : Machine)
    (h : ¬(t = .discover ∧ Unreadable m)) :
    ∃ text, (t.perform runner m).1 = .ok text ∧ Answers (t.outcome runner m) text := by
  rw [perform_eq_withSession]
  rcases hopen : openSession (start m) with ⟨e | ⟨⟩, w⟩
  · rw [withSession_of_error hopen, outcome_of_error hopen]
    exact ⟨_, rfl, answers_errorText e⟩
  rw [withSession_of_openSession hopen, outcome_of_openSession hopen]
  by_cases ht : t = .discover
  · subst ht
    rw [inSession_discover, work_discover]
    cases hv : discovered w with
    | ok v => exact ⟨_, rfl, answers_pretty (answerable_discovered hv)⟩
    | error e =>
      obtain ⟨f, hf, e', he⟩ := discovered_error_iff.1 ⟨e, hv⟩
      exact absurd ⟨rfl, w, f, e', hopen, hf, he⟩ h
  · rw [inSession_eq ht]
    refine answers_answer fun v hv => ?_
    have hwork : t.work runner w = (.ok v, (t.work runner w).2) := Prod.ext hv rfl
    exact answerable_work hwork

end Tools

open Console (Command Escapes)
open Tools (Tool Unreadable Answers)

/-- A machine on which nothing has been run. -/
def freshMachine (disk : FileTree) : Machine := ⟨disk, .empty, .new, "/", "", 0, 0, [], [], .usual⟩

end FeatureRun
