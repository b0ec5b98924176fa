import FeatureRun.Proofs.Store.Saved

/-!
# Calls to a store, and what they amount to

A store is made by calls, one after another; closing and opening it again is one of them. What
should be found in it is told from the log of those calls and their answers alone: the last result
of a node, and the runs with how they ended.

* `Call`, `perform`, `Reaches`: the calls, and the stores that they lead to.
* `Call.Admissible`: what can be asked of a store.
* `lastKept`, `runsOf`, `Answers`: what the log says about results, runs and answers.
-/
set_option autoImplicit false

namespace FeatureRun.Store

/-- A call that changes a store; `now` is the time of it. -/
inductive Call where
  | startRun (targets : List String) (now : String)
  | finishRun (run : Int) (counts : Summary) (status : Option RunStatus) (now : String)
  | record (run : Option Int) (results : List Result) (now : String)
  | forgetFile (file : String)
  | reset
  /-- The store is closed and opened again. -/
  | reopen
  deriving DecidableEq

inductive Answer where
  /-- The number of a new run. -/
  | run (id : Int)
  /-- How many results were kept. -/
  | count (n : Nat)
  | done
  | fault (e : StoreFault)
  deriving DecidableEq

/-- Carries out a call: its answer, and the store that it leaves. -/
def perform (s : Store) : Call → Answer × Store
  | .startRun targets now =>
    match s.startRun targets now with
    | .ok (id, s) => (.run id, s)
    | .error e => (.fault e, s)
  | .finishRun run counts status now =>
    match s.finishRun run counts status now with
    | .ok s => (.done, s)
    | .error e => (.fault e, s)
  | .record run results now =>
    match s.record run now results with
    | (.ok n, s) => (.count n, s)
    | (.error e, s) => (.fault e, s)
  | .forgetFile file => (.done, s.forgetFile file)
  | .reset => (.done, s.reset)
  | .reopen => (.done, (ofText? s.toText).getD .empty)

/-- All numbers fit, all ids can be read, and no status is a second spelling of another one. -/
def Call.Admissible : Call → Prop
  | .finishRun run counts status _ =>
    [counts.total, counts.passed, counts.failed, counts.unmatched, run].all fits = true ∧
      ∀ st, status = some st → st.Canonical
  | .record run results _ =>
    run.all fits = true ∧
      ∀ r ∈ results, r.status.Canonical ∧ ∃ ref, NodeRef.read r.id = .ok ref
  | _ => True

/-- Calls and their answers, the last call first. -/
abbrev Log := List (Call × Answer)

/-- The stores that admissible calls lead to, beginning with a new one. -/
inductive Reaches : Log → Store → Prop
  | new : Reaches [] .empty
  | call {log : Log} {s : Store} (c : Call) (h : Reaches log s) (hc : c.Admissible) :
      Reaches ((c, (s.perform c).1) :: log) (s.perform c).2

/-! ## What a log says -/

/-- The file of the node with an id. -/
def fileOf? (n : String) : Option String := (NodeRef.read n).toOption.map NodeRef.file

/-- The last of some results that is one of a node and not `unmatched`. -/
def lastOf (n : String) (results : List Result) : Option Result :=
  results.reverse.find? fun r => r.id = n ∧ r.status ≠ .unmatched

/-- The last result recorded for a node that was not `unmatched`, since the store was last cleared
and since the file of the node was last forgotten. -/
def lastKept (n : String) : Log → Option Result
  | [] => none
  | (.record _ results _, _) :: earlier => (lastOf n results).or (lastKept n earlier)
  | (.forgetFile file, _) :: earlier =>
    if fileOf? n = some file then none else lastKept n earlier
  | (.reset, _) :: _ => none
  | _ :: earlier => lastKept n earlier

/-- The run numbers that were given out, the last one first. -/
def givenOut (log : Log) : List Int :=
  log.filterMap fun e => match e.2 with | .run id => some id | _ => none

/-- The counts, the status and the time of the last call that ended a run. -/
def lastEnd? (run : Int) : Log → Option (Summary × Option RunStatus × String)
  | [] => none
  | (.finishRun id counts status now, _) :: earlier =>
    if id = run then some (counts, status, now) else lastEnd? run earlier
  | _ :: earlier => lastEnd? run earlier

/-- What the counts of a run say about it. -/
def verdict (counts : Summary) : RunStatus := if counts.failed = 0 then .passed else .failed

/-- How a run ended: as the call says, or as its counts say if the call leaves it open. -/
def outcomeOf (counts : Summary) : Option RunStatus → RunStatus
  | none | some (.other "") => verdict counts
  | some status => status

/-- The entry of a run that has ended. -/
def ended (counts : Summary) (status : Option RunStatus) (now : String) (e : RunEntry) : RunEntry :=
  { e with status := outcomeOf counts status, counts := counts, finished := some now }

/-- What is reported about a run, by the calls since it was started. -/
def entryOf (later : Log) (run : Int) (targets : List String) (started : String) : RunEntry :=
  let e : RunEntry := ⟨run, targets, .running, .empty, started, none⟩
  match lastEnd? run later with
  | none => e
  | some (counts, status, now) => ended counts status now e

/-- The runs that were started since the store was last cleared, the newest first. The calls in
`later` came after those in the log. -/
def runsOf (later : Log) : Log → List RunEntry
  | [] => []
  | (.reset, _) :: _ => []
  | (.startRun targets now, .run id) :: earlier =>
    entryOf later id targets now :: runsOf (later ++ [(.startRun targets now, .run id)]) earlier
  | e :: earlier => runsOf (later ++ [e]) earlier

/-- The right answer to a call after those in a log. A run gets a number larger than all before,
until the largest one has been given out. -/
def Answers (log : Log) : Call → Answer → Prop
  | .startRun _ _, a => (∃ id, a = .run id ∧ ∀ old ∈ givenOut log, old < id) ∨
      a = .fault .full ∧ 9223372036854775807 ∈ givenOut log
  | .record _ results _, a => a = .count (results.filter fun r => r.status ≠ .unmatched).length
  | _, a => a = .done

/-! ## Results -/

theorem lastOf_cons (n : String) (r : Result) (results : List Result) :
    lastOf n (r :: results) =
      (lastOf n results).or (if r.id = n ∧ r.status ≠ .unmatched then some r else none) := by
  rw [lastOf, lastOf, List.reverse_cons, List.find?_append, List.find?_singleton]
  simp only [decide_eq_true_eq]

/-! ## Runs and how they end -/

section Runs

variable {later : Log} {run id : Int} {targets : List String} {started now : String} {a : Answer}
  {counts : Summary} {status : Option RunStatus}

@[simp] theorem id_entryOf : (entryOf later run targets started).id = run := by
  rw [entryOf]
  split <;> rfl

/-- A call after all others changes each entry as it changes that of a single run. -/
theorem runsOf_cons {e : Call × Answer} {f : RunEntry → RunEntry}
    (h : ∀ later run targets started, entryOf (e :: later) run targets started =
      f (entryOf later run targets started)) (log : Log) :
    runsOf (e :: later) log = (runsOf later log).map f := by
  fun_induction runsOf later log with
  | case1 => rfl
  | case2 => rfl
  | case3 later targets now id earlier ih => rw [runsOf, h, List.map_cons, ← ih]; rfl
  | case4 later e earlier hreset hstart ih =>
    rw [runsOf]
    · exact ih
    · exact hreset
    · exact hstart

theorem entryOf_finishRun :
    entryOf ((.finishRun id counts status now, a) :: later) run targets started =
      if run = id then ended counts status now (entryOf later run targets started)
      else entryOf later run targets started := by
  by_cases h : run = id
  · simp only [entryOf, lastEnd?, h, if_true, ended]
    cases lastEnd? id later <;> rfl
  · simp only [entryOf, lastEnd?, h, Ne.symm h, if_false]

/-- Ending a run changes its entry, -/
theorem runsOf_finishRun (log : Log) :
    runsOf ((.finishRun id counts status now, a) :: later) log =
      (runsOf later log).map fun e => if e.id = id then ended counts status now e else e :=
  runsOf_cons (fun later run targets started => by rw [entryOf_finishRun, id_entryOf]) log

/-- and no other call does. -/
theorem runsOf_other {c : Call} (h : ∀ id counts status now, c ≠ .finishRun id counts status now)
    (log : Log) : runsOf ((c, a) :: later) log = runsOf later log := by
  have hentry : ∀ later run targets started,
      entryOf ((c, a) :: later) run targets started = entryOf later run targets started := by
    intro later run targets started
    cases c <;> first | rfl | exact absurd rfl (h _ _ _ _)
  rw [runsOf_cons (f := fun e => e) hentry, List.map_id']

end Runs

end FeatureRun.Store
