import FeatureRun.Report.Basic
import FeatureRun.Json.Reader

/-!
# Reading reports

A report is a JSON array. Within it every field is optional, and a field of an unexpected kind
counts as absent, so an array is always a report.
-/
set_option autoImplicit false

namespace FeatureRun.Report

/-- A text that is not a report. -/
inductive ReportError where
  | notJson (problem : Json.ReadError)
  | notArray
  deriving DecidableEq, Repr

def ReportError.message : ReportError → String
  | .notJson p => "Report is not valid JSON: " ++ p.message
  | .notArray => "Report is not a JSON array"

/-- A field that is an object, or else an empty one. -/
def objectField (name : String) (v : Json) : Json :=
  match v.field? name with
  | some (.obj fs) => .obj fs
  | _ => .obj []

def stringField (name : String) (v : Json) : Option String := (v.field? name).bind Json.string?

def intField (name : String) (v : Json) : Option Int := (v.field? name).bind Json.int?

/-- The items of a field that is an array. -/
def itemsField (name : String) (v : Json) : List Json := ((v.field? name).map Json.items).getD []

/-- A text that is not empty. -/
def nonempty (s : Option String) : Option String := s.filter (· ≠ "")

def Hook.ofJson (v : Json) : Hook :=
  let status :=
    match v.field? "result" with
    | some (.obj fs) => some ((nonempty (stringField "status" (.obj fs))).getD "unknown")
    | _ => none
  ⟨status, stringField "error_message" (objectField "result" v),
    stringField "location" (objectField "match" v)⟩

def Step.ofJson (v : Json) : Step :=
  let result := objectField "result" v
  { name := (stringField "name" v).getD ""
    keyword := (stringField "keyword" v).getD ""
    line := intField "line" v
    status := stringField "status" result
    error := stringField "error_message" result }

def Element.ofJson (v : Json) : Element :=
  { kind := (nonempty (stringField "type" v)).getD "scenario"
    name := (stringField "name" v).getD ""
    line := intField "line" v
    before := (itemsField "before" v).map Hook.ofJson
    after := (itemsField "after" v).map Hook.ofJson
    steps := (itemsField "steps" v).map Step.ofJson }

/-- A file is named by its `uri`, or else by its `id`. -/
def Entry.ofJson (v : Json) : Entry :=
  { uri := (nonempty (stringField "uri" v) <|> nonempty (stringField "id" v)).getD ""
    elements := (itemsField "elements" v).map Element.ofJson }

def ofJson (v : Json) : Except ReportError (List Entry) :=
  match v with
  | .arr vs => .ok (vs.map Entry.ofJson)
  | _ => .error .notArray

/-- Why a text is not read as a report: it is none, or it is too much for the reader. -/
inductive TextError where
  | report (e : ReportError)
  | excess (e : Json.Excess)
  deriving DecidableEq, Repr

/-- The report that a text holds, by a reader of so many levels. -/
def read (levels : Nat) (s : String) : Except TextError (List Entry) :=
  match Json.read levels s with
  | .error (.excess e) => .error (.excess e)
  | .error e => .error (.report (.notJson e))
  | .ok v => (ofJson v).mapError .report

end FeatureRun.Report
