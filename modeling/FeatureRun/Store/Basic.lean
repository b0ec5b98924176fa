import FeatureRun.NodeId
import FeatureRun.Store.Record

/-!
# The store of results

The last known result of every node, and a log of runs. A result that is `unmatched` is never kept,
so what was known before stays. Run numbers only ever grow, also after the log has been cleared.
What was recorded before an operation fails stays recorded.
-/
set_option autoImplicit false

namespace FeatureRun

/-- How far a run has come. -/
inductive RunStatus where
  | running
  | passed
  | failed
  /-- The run ended without a report. -/
  | error
  | other (word : String)
  deriving DecidableEq, Repr

def RunStatus.word : RunStatus → String
  | .running => "running"
  | .passed => "passed"
  | .failed => "failed"
  | .error => "error"
  | .other w => w

def RunStatus.ofWord (w : String) : RunStatus :=
  if w = "running" then .running
  else if w = "passed" then .passed
  else if w = "failed" then .failed
  else if w = "error" then .error
  else .other w

namespace Store

/-- What is kept about a node. -/
structure Row where
  file : String
  status : Status
  failures : String
  run : Option Int
  updated : String
  deriving DecidableEq, Repr

/-- What is kept about a run. -/
structure Run where
  id : Int
  targets : String
  status : RunStatus
  counts : Summary
  started : String
  finished : Option String
  deriving DecidableEq, Repr

end Store

structure Store where
  rows : OrderedMap String Store.Row
  /-- The runs, the newest first. -/
  runs : List Store.Run
  /-- The number of the last run that was ever started. -/
  lastRun : Int

/-- Why the store refuses an operation. -/
inductive StoreFault where
  | badId (e : Text.NumeralError)
  | tooLarge
  | full
  deriving DecidableEq, Repr

def StoreFault.message : StoreFault → String
  | .badId e => e.message
  | .tooLarge => "Python int too large to convert to SQLite INTEGER"
  | .full => "database or disk is full"

/-- A run as it is reported. -/
structure RunEntry where
  id : Int
  targets : List String
  status : RunStatus
  counts : Summary
  started : String
  finished : Option String
  deriving DecidableEq, Repr

namespace Store

def empty : Store := ⟨.empty, [], 0⟩

instance : Inhabited Store := ⟨empty⟩

/-- Numbers of 64 bits with a sign, the only ones that fit. -/
def fits (n : Int) : Bool := -9223372036854775808 ≤ n && n < 9223372036854775808

/-- Starts a run at a time: its number, and the store with the run in it. -/
def startRun (s : Store) (targets : List String) (now : String) :
    Except StoreFault (Int × Store) :=
  let id := s.lastRun + 1
  if fits id then
    .ok (id, { s with
      runs := ⟨id, targetsText targets, .running, .empty, now, none⟩ :: s.runs
      lastRun := id })
  else .error .full

/-- The status of a run that has ended, unless another one is given. The empty word gives none. -/
def endStatus (counts : Summary) (status : Option RunStatus) : RunStatus :=
  (status.filter fun st => st.word ≠ "").getD (if counts.success then .passed else .failed)

/-- Ends a run at a time. A number that no run has is no fault. -/
def finishRun (s : Store) (id : Int) (counts : Summary) (status : Option RunStatus)
    (now : String) : Except StoreFault Store :=
  if [counts.total, counts.passed, counts.failed, counts.unmatched, id].all fits then
    .ok { s with
      runs := s.runs.map fun r =>
        if r.id = id then
          { r with status := endStatus counts status, counts := counts, finished := some now }
        else r }
  else .error .tooLarge

/-- Keeps one result. -/
def keep (s : Store) (run : Option Int) (now : String) (r : Result) : Except StoreFault Store :=
  match NodeRef.read r.id with
  | .error e => .error (.badId e)
  | .ok ref =>
    if run.all fits then
      let row : Row := ⟨ref.file, r.status, failuresText r.failures, run, now⟩
      .ok { s with rows := s.rows.insert r.id row }
    else .error .tooLarge

/-- The texts of a result that are kept: none, if it is passed over or its id cannot be read. -/
def textsOf (r : Result) : List String :=
  if r.status = .unmatched then []
  else
    match NodeRef.read r.id with
    | .error _ => []
    | .ok ref => [r.id, ref.file, r.status.word, failuresText r.failures]

/-- Keeps results one after another and counts them; `unmatched` ones are passed over. -/
def recordFrom (run : Option Int) (now : String) (count : Nat) (s : Store) :
    List Result → Except StoreFault Nat × Store
  | [] => (.ok count, s)
  | r :: rs =>
    if r.status = .unmatched then recordFrom run now count s rs
    else
      match s.keep run now r with
      | .error e => (.error e, s)
      | .ok s => recordFrom run now (count + 1) s rs

def record (s : Store) (run : Option Int) (now : String) (rs : List Result) :
    Except StoreFault Nat × Store := recordFrom run now 0 s rs

def Row.result (r : Row) (id : String) : Result := ⟨id, r.status, failuresOf r.failures⟩

/-- The last result kept for a node. -/
def get? (s : Store) (id : String) : Option Result := (s.rows.get? id).map fun r => r.result id

/-- The results of the nodes of a file. -/
def getFile (s : Store) (file : String) : Results :=
  .ofList ((s.rows.entries.filter fun e => e.2.file = file).map fun e => (e.1, e.2.result e.1))

/-- Forgets the results of the nodes of a file. -/
def forgetFile (s : Store) (file : String) : Store :=
  { s with rows := s.rows.filter fun _ r => r.file ≠ file }

/-- Forgets all results and runs, but not which run numbers have been used. -/
def reset (s : Store) : Store := { s with rows := .empty, runs := [] }

def Run.entry (r : Run) : RunEntry :=
  ⟨r.id, targetsOf r.targets, r.status, r.counts, r.started, r.finished⟩

/-- The newest runs, at most `count` of them. -/
def latest (s : Store) (count : Nat) : List RunEntry := (s.runs.take count).map Run.entry

/-- The newest runs first, at most `limit` of them, or all if it is negative. -/
def history (s : Store) (limit : Int) : Except StoreFault (List RunEntry) :=
  if fits limit then
    .ok (if limit < 0 then s.runs.map Run.entry else s.latest limit.toNat)
  else .error .tooLarge

end Store
end FeatureRun
