import FeatureRun.Store.Basic

/-!
# The store as text

A store is written as one JSON object, so that it can be kept in a file between two programs.
-/
set_option autoImplicit false

namespace FeatureRun.Store

def optional {α : Type} (encode : α → Json) (a : Option α) : Json := (a.map encode).getD .null

def rowJson (e : String × Row) : Json :=
  .obj [("node", .str e.1), ("file", .str e.2.file), ("status", .str e.2.status.word),
    ("failures", .str e.2.failures), ("run", optional .int e.2.run), ("updated", .str e.2.updated)]

def runJson (r : Run) : Json :=
  .obj [("id", .int r.id), ("targets", .str r.targets), ("status", .str r.status.word),
    ("total", .int r.counts.total), ("passed", .int r.counts.passed),
    ("failed", .int r.counts.failed), ("unmatched", .int r.counts.unmatched),
    ("started", .str r.started), ("finished", optional .str r.finished)]

def toText (s : Store) : String :=
  Json.line (.obj [("rows", .arr (s.rows.entries.map rowJson)),
    ("runs", .arr (s.runs.map runJson)), ("lastRun", .int s.lastRun)])

def stringAt? (v : Json) (name : String) : Option String := (v.field? name).bind Json.string?

def intAt? (v : Json) (name : String) : Option Int := (v.field? name).bind Json.int?

def itemsAt (v : Json) (name : String) : List Json := ((v.field? name).map Json.items).getD []

def rowOf? (v : Json) : Option (String × Row) := do
  let id ← stringAt? v "node"
  let file ← stringAt? v "file"
  let status ← stringAt? v "status"
  let failures ← stringAt? v "failures"
  let updated ← stringAt? v "updated"
  return (id, ⟨file, .ofWord status, failures, intAt? v "run", updated⟩)

def runOf? (v : Json) : Option Run := do
  let id ← intAt? v "id"
  let targets ← stringAt? v "targets"
  let status ← stringAt? v "status"
  let total ← intAt? v "total"
  let passed ← intAt? v "passed"
  let failed ← intAt? v "failed"
  let unmatched ← intAt? v "unmatched"
  let started ← stringAt? v "started"
  return ⟨id, targets, .ofWord status, ⟨total, passed, failed, unmatched⟩, started,
    stringAt? v "finished"⟩

/-- The store that a text holds. -/
def ofText? (s : String) : Option Store := do
  let v ← (Json.document .unlimited s.toList).toOption
  let rows ← (itemsAt v "rows").mapM rowOf?
  let runs ← (itemsAt v "runs").mapM runOf?
  let lastRun ← intAt? v "lastRun"
  return ⟨.ofList rows, runs, lastRun⟩

end FeatureRun.Store
