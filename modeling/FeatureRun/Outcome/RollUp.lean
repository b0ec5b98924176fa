import FeatureRun.Outcome.Match
import FeatureRun.NodeId

/-!
# Rolling outcomes up the tree

The result of a row comes from the outcomes matched with it, that of a scenario from its own and
those of its rows, and that of a rule or the feature from the results of the scenarios below it. The
failures of a node are those of everything below it, in document order.
-/
set_option autoImplicit false

namespace FeatureRun.RollUp

/-- A scenario or row passed if at least one outcome reached it and all passed. -/
def statusOf (os : List Outcome) : Status :=
  if os.isEmpty then .unmatched else if os.all Outcome.passed then .passed else .failed

/-- The failure of an outcome that did not pass. -/
def failureOf (o : Outcome) : Failure :=
  o.failure.getD ⟨"Scenario failed", "Scenario failed", Outcome.lineOr o.line 0⟩

def failuresOf (os : List Outcome) : List Failure :=
  (os.filter fun o => !o.passed).map failureOf

/-- A rule or a feature passed if it has a scenario and every scenario passed. -/
def groupStatus (rs : List Result) : Status :=
  let statuses := rs.map Result.status
  if statuses.contains .failed then .failed
  else if !statuses.isEmpty && statuses.all (· = .passed) then .passed
  else if statuses.all (· = .unmatched) then .unmatched
  else .mixed

def group (id : String) (rs : List Result) : Result :=
  ⟨id, groupStatus rs, rs.flatMap Result.failures⟩

/-- The matches with the scenario or row at a position. -/
def matchesAt (ms : List Match) (p : Place) : List Match := ms.filter fun m => m.site.place = p

/-- The outcomes at a position. -/
def outcomesAt (ms : List Match) (p : Place) : List Outcome := (matchesAt ms p).map Match.outcome

/-- The result of a row of the scenario at a position. -/
def rowResult (file : String) (ms : List Match) (index : Nat) (s : Scenario) (j : Nat) (r : Row) :
    Result :=
  let os := outcomesAt ms ⟨index, some j⟩
  ⟨rowId file s.line r.line, statusOf os, failuresOf os⟩

def rowResults (file : String) (ms : List Match) (index : Nat) (s : Scenario) : List Result :=
  s.rows.mapIdx (rowResult file ms index s)

/-- All outcomes of a scenario: its own, then those of its rows. -/
def scenarioOutcomes (ms : List Match) (index : Nat) (s : Scenario) : List Outcome :=
  outcomesAt ms ⟨index, none⟩ ++
    (s.rows.mapIdx fun j _ => outcomesAt ms ⟨index, some j⟩).flatten

def scenarioResult (file : String) (ms : List Match) (index : Nat) (s : Scenario) : Result :=
  let os := scenarioOutcomes ms index s
  ⟨scenarioId file s.line, statusOf os, failuresOf os⟩

/-- The results of scenarios, the first of which is at position `index`. -/
def scenarioResults (file : String) (ms : List Match) (index : Nat) (ss : List Scenario) :
    List Result :=
  ss.mapIdx fun i s => scenarioResult file ms (index + i) s

/-- The results of the rows and scenarios in a list of scenarios, each scenario behind its rows. -/
def nodeResults (file : String) (ms : List Match) (index : Nat) (ss : List Scenario) :
    List Result :=
  (ss.mapIdx fun i s =>
    rowResults file ms (index + i) s ++ [scenarioResult file ms (index + i) s]).flatten

/-- All results below a feature, every node behind those below it. -/
def childResults (file : String) (ms : List Match) (index : Nat) : List Child → List Result
  | [] => []
  | .scenario s :: rest =>
    nodeResults file ms index [s] ++ childResults file ms (index + 1) rest
  | .rule r :: rest =>
    nodeResults file ms index r.scenarios ++
      group (ruleId file r.line) (scenarioResults file ms index r.scenarios) ::
        childResults file ms (index + r.scenarios.length) rest

/-- The results of every node of a feature; `file` is the id of its file. If two nodes have one id,
the later one counts. -/
def results (file : String) (f : Feature) (ms : List Match) : Results :=
  let all :=
    childResults file ms 0 f.children ++ [group file (scenarioResults file ms 0 f.scenarios)]
  .ofList (all.map fun r => (r.id, r))

/-- The results of a feature after a run with these outcomes. -/
def ofOutcomes (file : String) (f : Feature) (os : List Outcome) : Results :=
  results file f (Outcome.matched f os)

end FeatureRun.RollUp
