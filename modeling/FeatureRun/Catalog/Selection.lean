import FeatureRun.Catalog.Node

/-!
# Selections of nodes

Of the nodes selected for a run only those count that lie below no other selected node. Without a
selection every feature is selected.
-/
set_option autoImplicit false

namespace FeatureRun

/-- Why a selection cannot be run. -/
inductive SelectionFault where
  | badId (e : Text.NumeralError)
  | unknown (ids : List String)
  deriving DecidableEq, Repr

def SelectionFault.message : SelectionFault → String
  | .badId e => e.message
  | .unknown ids => "Unknown test node(s): " ++ Text.join ", " ids

namespace Catalog

/-- Whether a node above `id` is among the chosen ones. The search ends at the first that is. -/
def coveredFrom (c : Catalog) (chosen : List String) (fuel : Nat) (id : String) : Lookup Bool :=
  match fuel with
  | 0 => .ok false
  | n + 1 =>
    match c.parent id with
    | .error e => .error e
    | .ok none => .ok false
    | .ok (some p) => if chosen.contains p then .ok true else c.coveredFrom chosen n p

def covered (c : Catalog) (chosen : List String) (id : String) : Lookup Bool :=
  c.coveredFrom chosen (chainBound id) id

/-- The ids that are not covered by the chosen ones. -/
def uncovered (c : Catalog) (chosen : List String) : List String → Lookup (List String)
  | [] => .ok []
  | id :: ids =>
    match c.covered chosen id with
    | .error e => .error e
    | .ok true => c.uncovered chosen ids
    | .ok false => (c.uncovered chosen ids).map (id :: ·)

/-- The selected nodes below no other selected node, each once, in the order of their first
occurrence. -/
def selectRoots (c : Catalog) (ids : List String) : Lookup (List String) :=
  let chosen := ids.eraseDups
  c.uncovered chosen chosen

/-- The ids that name nothing. -/
def unknownIn (c : Catalog) : List String → Lookup (List String)
  | [] => .ok []
  | id :: ids =>
    match c.resolve id with
    | .error e => .error e
    | .ok (some _) => c.unknownIn ids
    | .ok none => (c.unknownIn ids).map (id :: ·)

/-- The roots of a selection, or of all features if there is none. All of them must be known. -/
def select (c : Catalog) (ids : Option (List String)) : Except SelectionFault (List String) :=
  match c.selectRoots (ids.getD (c.sorted.map Feature.path)) with
  | .error e => .error (.badId e)
  | .ok roots =>
    match c.unknownIn roots with
    | .error e => .error (.badId e)
    | .ok [] => .ok roots
    | .ok unknown => .error (.unknown unknown)

end Catalog
end FeatureRun
