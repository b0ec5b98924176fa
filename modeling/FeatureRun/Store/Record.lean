import FeatureRun.Json.Reader
import FeatureRun.Json.Writer
import FeatureRun.Result

/-!
# How failures and targets are kept

The store keeps the failures of a result and the targets of a run as JSON text. Reading is written
so that it gives back what was written, whatever the size of the numbers in it.
-/
set_option autoImplicit false

namespace FeatureRun

def Failure.toJson (f : Failure) : Json :=
  .obj [("label", .str f.label), ("message", .str f.message), ("line", .int f.line)]

def Failure.ofJson? (v : Json) : Option Failure := do
  let label ← (v.field? "label").bind Json.string?
  let message ← (v.field? "message").bind Json.string?
  let line ← (v.field? "line").bind Json.int?
  return ⟨label, message, line⟩

namespace Store

/-- The items of a JSON array that a text holds. -/
def itemsOf (s : String) : List Json :=
  match Json.document .unlimited s.toList with
  | .ok v => v.items
  | .error _ => []

def failuresText (fs : List Failure) : String := Json.line (.arr (fs.map Failure.toJson))

def failuresOf (s : String) : List Failure := (itemsOf s).filterMap Failure.ofJson?

def targetsText (ids : List String) : String := Json.line (.arr (ids.map Json.str))

def targetsOf (s : String) : List String := (itemsOf s).filterMap Json.string?

end Store
end FeatureRun
