import FeatureRun.Catalog.Basic
import FeatureRun.NodeId

/-!
# Nodes by their ids

The node that an id names, its parent, everything below it, and what it is called. An id is read
before it is looked up, so an id that cannot be read is an error, and one that names nothing is not.
-/
set_option autoImplicit false

namespace FeatureRun

inductive CatalogNode where
  | feature (f : Feature)
  | rule (r : Rule)
  | scenario (s : Scenario)
  | row (r : Row)
  deriving DecidableEq, Repr

namespace Catalog

/-- What looking up an id gives, unless the id cannot be read. -/
abbrev Lookup (α : Type) := Except Text.NumeralError α

def ruleOn? (f : Feature) (line : Int) : Option Rule := f.rules.find? fun r => r.line = line

def scenarioOn? (f : Feature) (line : Int) : Option Scenario :=
  f.scenarios.find? fun s => s.line = line

def rowOn? (s : Scenario) (line : Int) : Option Row := s.rows.find? fun r => r.line = line

/-- The node that a reference names. -/
def node? (c : Catalog) (ref : NodeRef) : Option CatalogNode :=
  (c.get? ref.file).bind fun f =>
    match ref with
    | .feature _ => some (.feature f)
    | .rule _ line => (ruleOn? f line).map .rule
    | .scenario _ line => (scenarioOn? f line).map .scenario
    | .row _ scenarioLine line =>
      ((scenarioOn? f scenarioLine).bind fun s => rowOn? s line).map .row

/-- The node that an id names. -/
def resolve (c : Catalog) (id : String) : Lookup (Option CatalogNode) :=
  (NodeRef.read id).map c.node?

/-- The first rule that holds a scenario on a line. -/
def ruleAround? (f : Feature) (line : Int) : Option Rule :=
  f.rules.find? fun r => r.scenarios.any fun s => s.line = line

/-- The id of the node above the one that a reference names. -/
def parentOf? (c : Catalog) (ref : NodeRef) : Option String :=
  (c.get? ref.file).bind fun f =>
    match ref with
    | .feature _ => none
    | .rule file _ => some file
    | .scenario file line =>
      match ruleAround? f line with
      | some r => some (ruleId file r.line)
      | none => some file
    | .row file scenarioLine _ => some (scenarioId file scenarioLine)

def parent (c : Catalog) (id : String) : Lookup (Option String) :=
  (NodeRef.read id).map c.parentOf?

/-- More steps than any chain of parents has: after three of them at most a mark is gone. -/
def chainBound (id : String) : Nat := 3 * id.length + 3

/-- The parent of a node, its parent, and so on. -/
def ancestorsFrom (c : Catalog) (fuel : Nat) (id : String) : Lookup (List String) :=
  match fuel with
  | 0 => .ok []
  | n + 1 =>
    match c.parent id with
    | .error e => .error e
    | .ok none => .ok []
    | .ok (some p) => (c.ancestorsFrom n p).map (p :: ·)

def ancestors (c : Catalog) (id : String) : Lookup (List String) :=
  c.ancestorsFrom (chainBound id) id

/-- Puts lists that may fail behind each other. -/
def concat {α : Type} : List (Lookup (List α)) → Lookup (List α)
  | [] => .ok []
  | .error e :: _ => .error e
  | .ok xs :: rest => (concat rest).map (xs ++ ·)

/-- The id of a node and the ids of all nodes below it. `depth` bounds how far down they lie. -/
def descendantsFrom (c : Catalog) (depth : Nat) (id : String) : Lookup (List String) :=
  match depth with
  | 0 => .ok []
  | n + 1 =>
    match NodeRef.read id with
    | .error e => .error e
    | .ok ref =>
      let file := ref.file
      let below (s : Scenario) : Lookup (List String) :=
        c.descendantsFrom n (scenarioId file s.line)
      match c.node? ref with
      | none => .ok []
      | some (.row _) => .ok [id]
      | some (.scenario s) => .ok (id :: s.rows.map fun r => rowId file s.line r.line)
      | some (.rule r) => (concat (r.scenarios.map below)).map (id :: ·)
      | some (.feature f) =>
        (concat (f.children.map fun child =>
          match child with
          | .rule r => c.descendantsFrom n (ruleId file r.line)
          | .scenario s => below s)).map (file :: ·)

/-- The id of a node and the ids of all nodes below it in document order. -/
def descendants (c : Catalog) (id : String) : Lookup (List String) := c.descendantsFrom 3 id

/-- What a node is called; an id that names nothing stands for itself. -/
def label (c : Catalog) (id : String) : Lookup String :=
  (c.resolve id).map fun node =>
    match node with
    | some (.feature f) => f.name
    | some (.rule r) => "Rule: " ++ r.name
    | some (.scenario s) => s.name
    | some (.row r) => "Example: " ++ r.text
    | none => id

end Catalog
end FeatureRun
