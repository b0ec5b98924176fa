import FeatureRun.Yaml.Merge
import FeatureRun.Yaml.Reading
import FeatureRun.Yaml.Value

/-!
# Documents

The values of all nodes of a YAML document. A scalar gets its value at once when it is met. A
collection has to wait until those met before it have been filled, so that of two faults the one
nearer to the root shows first. Every node is met once, however many others hold it.
-/
set_option autoImplicit false

namespace FeatureRun.Yaml

/-- The values of the nodes met so far, and the collections that wait for their parts, the last one
first. `merges` is how many merge keys there were in the beginning. -/
structure Building where
  graph : Graph
  merges : Nat
  values : Array (Option (Value NodeId))
  waiting : List (NodeId × CollectionKind)

abbrev Build (α : Type) := StateT Building (Except Error) α

namespace Build

def give (id : NodeId) (v : Value NodeId) : Build Unit :=
  modify fun b => { b with values := b.values.setIfInBounds id (some v) }

/-- A collection of this kind without any parts. -/
def blank : CollectionKind → Value NodeId
  | .seq => .sequence []
  | .map => .mapping []
  | .set => .set []
  | .pairs => .pairs []

/-- The value of a scalar. A date cannot be given as a mapping. -/
def scalar (g : Graph) (id : NodeId) (kind : ScalarKind) : Except Error (Value NodeId) :=
  match g.text id, g.node id, kind with
  | .error e, _, _ => .error e
  | .ok _, .mapping _ _, .timestamp => .error (.refusal .notText)
  | .ok text, _, _ => kind.read text

/-- Gives a node its value, unless it has one. -/
def meet (id : NodeId) : Build Unit := do
  let b ← get
  if ((b.values[id]?).join).isNone then
    match tagKind? (b.graph.tag id) with
    | some (.scalar kind) => give id (← scalar b.graph id kind)
    | some (.collection kind) =>
      give id (blank kind)
      modify fun b => { b with waiting := (id, kind) :: b.waiting }
    | none => throw (.fault (.unknownTag (b.graph.tag id)))

/-- A node that cannot be a key. -/
def isCollection (g : Graph) (id : NodeId) : Bool :=
  match tagKind? (g.tag id) with
  | some (.collection _) => true
  | _ => false

/-- The entries of a mapping, merged and met. -/
def entries (id : NodeId) : Build (List Entry) := do
  let b ← get
  match b.graph.node id with
  | .mapping _ _ =>
    let ((), g) ← (Merging.merge b.merges id).run b.graph
    set { b with graph := g }
    let es := g.entries id
    for (k, v) in es do
      meet k
      if isCollection g k then throw (.fault .unhashableKey)
      meet v
    return es
  | n => throw (.fault (.wrongKind n.tag))

/-- The one entry of an item of a list of pairs. -/
def pair (id : NodeId) : Build Entry := do
  match (← get).graph.node id with
  | .mapping _ [(k, v)] =>
    meet k
    meet v
    return (k, v)
  | n => throw (.fault (.wrongKind n.tag))

/-- The items of a sequence. -/
def items (id : NodeId) : Build (List NodeId) := do
  match (← get).graph.node id with
  | .sequence _ ids => return ids
  | n => throw (.fault (.wrongKind n.tag))

/-- Gives a collection its parts. -/
def fill (id : NodeId) : CollectionKind → Build Unit
  | .seq => do
    let ids ← items id
    ids.forM meet
    give id (.sequence ids)
  | .map => do give id (.mapping (← entries id))
  | .set => do give id (.set ((← entries id).map Prod.fst))
  | .pairs => do give id (.pairs (← (← items id).mapM pair))

/-- Fills the collections that wait, and then those met by that. `fuel` bounds how deep they are
nested. -/
def fillAll (fuel : Nat) : Build Unit :=
  match fuel with
  | 0 => return ()
  | n + 1 => do
    let round := (← get).waiting.reverse
    if !round.isEmpty then
      modify fun b => { b with waiting := [] }
      round.forM fun (id, kind) => fill id kind
      fillAll n

end Build

/-- The values of all nodes by their numbers, and the number of the root. -/
structure Document where
  values : Array (Value NodeId)
  root : NodeId

namespace Document

/-- The document of an empty text. -/
def empty : Document := ⟨#[.null], 0⟩

def value (d : Document) (id : NodeId) : Value NodeId := d.values.getD id .null

/-- The value of the root with the values of its parts, and of their parts. -/
def unfolded (d : Document) : Value (Value (Value NodeId)) :=
  (d.value d.root).map fun id => (d.value id).map d.value

def ofGraph (g : Graph) (root : NodeId) : Except Error Document := do
  let build : Build Unit := do
    Build.meet root
    Build.fillAll (g.size + 1)
  let ((), b) ← build.run ⟨g, g.countMerges, Array.replicate g.size none, []⟩
  return ⟨b.values.map fun v => v.getD .null, root⟩

/-- The one document of a text. -/
def read (text : String) : Except Error Document := do
  match ← Graph.ofTokens? (.ofList text.toList) with
  | none => return .empty
  | some (g, root) => ofGraph g root

end Document
end FeatureRun.Yaml
