import FeatureRun.Yaml.Error
import FeatureRun.Yaml.Resolve

/-!
# Node graphs

The nodes of a YAML document. An alias stands for the very node that its anchor names, so a node may
be part of several others, and even of itself. For this reason nodes are kept in a `Graph` and hold
each other by number.
-/
set_option autoImplicit false

namespace FeatureRun.Yaml

/-- The number of a node in a graph. -/
abbrev NodeId := Nat

abbrev Entry := NodeId × NodeId

inductive Node where
  | scalar (tag text : String)
  | sequence (tag : String) (items : List NodeId)
  | mapping (tag : String) (entries : List Entry)
  deriving DecidableEq, Repr

namespace Node

def tag : Node → String
  | .scalar t _ => t
  | .sequence t _ => t
  | .mapping t _ => t

def withTag (t : String) : Node → Node
  | .scalar _ text => .scalar t text
  | .sequence _ items => .sequence t items
  | .mapping _ entries => .mapping t entries

/-- A node without any text. -/
def empty : Node := .scalar (plainTag "") ""

end Node

structure Graph where
  nodes : Array Node

namespace Graph

def empty : Graph := ⟨#[]⟩

def size (g : Graph) : Nat := g.nodes.size

/-- The node with a number; a number that none has stands for an empty node. -/
def node (g : Graph) (id : NodeId) : Node := g.nodes.getD id .empty

/-- Adds a node; its number is the size that the graph had. -/
def push (g : Graph) (n : Node) : Graph := ⟨g.nodes.push n⟩

/-- Replaces a node. -/
def set (g : Graph) (id : NodeId) (n : Node) : Graph := ⟨g.nodes.setIfInBounds id n⟩

def tag (g : Graph) (id : NodeId) : String := (g.node id).tag

/-- The entries of a mapping. -/
def entries (g : Graph) (id : NodeId) : List Entry :=
  match g.node id with
  | .mapping _ es => es
  | _ => []

def setEntries (g : Graph) (id : NodeId) (es : List Entry) : Graph :=
  g.set id (.mapping (g.tag id) es)

def retag (g : Graph) (id : NodeId) (t : String) : Graph := g.set id ((g.node id).withTag t)

/-- The key of an entry has the standard tag with this name. -/
def keyIs (g : Graph) (name : String) (e : Entry) : Bool := g.tag e.1 == standardTag name

/-- The text of a node. A mapping has one too if it has an entry whose key is an equals sign. -/
def textFrom (g : Graph) (fuel : Nat) (id : NodeId) : Except Error String :=
  match fuel with
  | 0 => .error (.refusal .endless)
  | n + 1 =>
    match g.node id with
    | .scalar _ text => .ok text
    | .sequence tag _ => .error (.fault (.wrongKind tag))
    | .mapping tag entries =>
      match entries.find? (g.keyIs "value") with
      | some (_, v) => g.textFrom n v
      | none => .error (.fault (.wrongKind tag))

def text (g : Graph) (id : NodeId) : Except Error String := g.textFrom (g.size + 1) id

end Graph
end FeatureRun.Yaml
