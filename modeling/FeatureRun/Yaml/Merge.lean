import FeatureRun.Yaml.Graph

/-!
# Merge keys

A key `<<` puts the entries of other mappings in front of those of its own mapping. Merging changes
the mappings of the graph themselves, the merged ones first, so that each merge key is dealt with
once, also where mappings are merged into each other.
-/
set_option autoImplicit false

namespace FeatureRun.Yaml

abbrev Merging (α : Type) := StateT Graph (Except Error) α

namespace Graph

/-- How many entries of mappings have a merge key. -/
def countMerges (g : Graph) : Nat :=
  g.nodes.foldl (fun n node =>
    match node with
    | .mapping _ es => n + es.countP (g.keyIs "merge")
    | _ => n) 0

/-- The source of a mapping's first merge key, and the entries without that one. -/
def takeMerge? (g : Graph) (es : List Entry) : Option (NodeId × List Entry) :=
  match es.span fun e => !g.keyIs "merge" e with
  | (before, (_, source) :: after) => some (source, before ++ after)
  | (_, []) => none

/-- An equals sign as a key of a mapping stands for itself. -/
def plainKey (g : Graph) (e : Entry) : Graph :=
  if g.keyIs "value" e then g.retag e.1 (standardTag "str") else g

end Graph

namespace Merging

/-- The entries of a mapping, once it has been merged itself. -/
def entriesOf (merge : NodeId → Merging Unit) (id : NodeId) : Merging (List Entry) := do
  match (← get).node id with
  | .mapping _ _ =>
    merge id
    return (← get).entries id
  | _ => throw (.fault .unmergeable)

/-- The entries that a mapping, or a sequence of mappings, gives to a mapping it is merged into. Of
a sequence, those of the last mapping come first. -/
def sourceEntries (merge : NodeId → Merging Unit) (source : NodeId) : Merging (List Entry) := do
  match (← get).node source with
  | .sequence _ items => return (← items.mapM (entriesOf merge)).reverse.flatten
  | _ => entriesOf merge source

/-- Merges into a mapping. `merged` are the entries from its merge keys so far, and `fuel` bounds
how many merge keys are left. -/
def mergeFrom (fuel : Nat) (merged : List Entry) (id : NodeId) : Merging Unit := do
  let g ← get
  match fuel, g.takeMerge? (g.entries id) with
  | n + 1, some (source, rest) =>
    set (g.setEntries id rest)
    let more ← sourceEntries (mergeFrom n []) source
    mergeFrom n (merged ++ more) id
  | _, _ =>
    let g := g.setEntries id (merged ++ g.entries id)
    set ((g.entries id).foldl Graph.plainKey g)

/-- Merges into a mapping what its merge keys name; `merges` is how many there are in all. -/
def merge (merges : Nat) (id : NodeId) : Merging Unit := mergeFrom (merges + 1) [] id

end Merging
end FeatureRun.Yaml
