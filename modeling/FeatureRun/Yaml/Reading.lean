import FeatureRun.Yaml.Graph
import FeatureRun.Yaml.Token

/-!
# Reading node graphs

The tokens of a document as a graph of tagged nodes. A collection gets its number before its parts
are read, so that they may hold an alias to it. Tokens are only looked at one by one: a fault that
ends them shows when nothing before it is wrong.
-/
set_option autoImplicit false

namespace FeatureRun.Yaml

/-- What reading nodes depends on and changes: the tokens left, the nodes that have anchors, the
addresses of the tag handles, and the nodes so far. -/
structure Reader where
  tokens : Tokens
  anchors : List (String × NodeId)
  handles : List (String × String)
  graph : Graph

abbrev Reading (α : Type) := StateT Reader (Except Error) α

namespace Reading

variable {α : Type}

def fail (f : Fault) : Reading α := throw (.fault f)

/-- The next token, if there is one. -/
def peek : Reading (Option Token) := do
  let ts := (← get).tokens
  match ts.list, ts.fault with
  | t :: _, _ => return some t
  | [], some e => throw e
  | [], none => return none

/-- Past the next token. -/
def skip : Reading Unit :=
  modify fun r => { r with tokens := { r.tokens with list := r.tokens.list.tail } }

def nextIs (t : Token) : Reading Bool := return (← peek) == some t

def nextIn (ts : List Token) : Reading Bool := return (← peek).any ts.contains

/-! ## Anchors and tags -/

def anchor? : Reading (Option String) := do
  match ← peek with
  | some (.anchor a) => skip; return some a
  | _ => return none

def tagText? : Reading (Option TagText) := do
  match ← peek with
  | some (.tag t) => skip; return some t
  | _ => return none

/-- The full tag of a tag as written. -/
def fullTag (t : TagText) : Reading String := do
  match t.handle with
  | none => return t.suffix
  | some h =>
    match (← get).handles.lookup h with
    | some address => return address ++ t.suffix
    | none => fail (.unknownHandle h)

/-- What may stand in front of a node. -/
structure Properties where
  anchor : Option String
  tag : Option String

/-- The anchor and the tag in front of a node, in either order. -/
def properties : Reading Properties := do
  let before ← anchor?
  let written ← tagText?
  let anchor ← if before.isNone && written.isSome then anchor? else pure before
  let tag ← written.mapM fullTag
  return ⟨anchor, tag⟩

/-- The node that an alias stands for. -/
def named (name : String) : Reading NodeId := do
  match (← get).anchors.lookup name with
  | some id => return id
  | none => fail (.unknownAlias name)

/-! ## Nodes -/

/-- Adds a node to the graph. -/
def add (n : Node) : Reading NodeId := do
  let id := (← get).graph.size
  modify fun r => { r with graph := r.graph.push n }
  return id

/-- Adds a node that may have an anchor, which must not have been used before. -/
def addNamed (anchor : Option String) (n : Node) : Reading NodeId := do
  match anchor with
  | none => add n
  | some a =>
    if ((← get).anchors.lookup a).isSome then fail (.repeatedAnchor a)
    else
      let id ← add n
      modify fun r => { r with anchors := (a, id) :: r.anchors }
      return id

def addEmpty : Reading NodeId := add .empty

/-- The tag of a collection: its own, unless it has none or only an exclamation mark. -/
def collectionTag (tag : Option String) (usual : String) : String :=
  match tag with
  | none => standardTag usual
  | some t => if t = "!" then standardTag usual else t

/-- The tag of a scalar: its own, or the one its text gives it if it is plain. -/
def scalarTag (tag : Option String) (plain : Bool) (text : String) : String :=
  match tag with
  | none => if plain then plainTag text else standardTag "str"
  | some t => if t = "!" then plainTag text else t

def addScalar (p : Properties) (plain : Bool) (text : String) : Reading NodeId :=
  addNamed p.anchor (.scalar (scalarTag p.tag plain text) text)

/-- Adds a sequence whose items are read by `items`. -/
def addSequence (p : Properties) (items : Reading (List NodeId)) : Reading NodeId := do
  let tag := collectionTag p.tag "seq"
  let id ← addNamed p.anchor (.sequence tag [])
  let parts ← items
  modify fun r => { r with graph := r.graph.set id (.sequence tag parts) }
  return id

/-- Adds a mapping whose entries are read by `entries`. -/
def addMapping (p : Properties) (entries : Reading (List Entry)) : Reading NodeId := do
  let tag := collectionTag p.tag "map"
  let id ← addNamed p.anchor (.mapping tag [])
  let parts ← entries
  modify fun r => { r with graph := r.graph.set id (.mapping tag parts) }
  return id

/-- Where a node may stand. -/
inductive Context where
  /-- Within a flow collection. -/
  | flow
  /-- Within a block. -/
  | block
  /-- Within a block mapping, where a sequence needs no indentation. -/
  | entry
  deriving DecidableEq, Repr

mutual

/-- The node at the next token. `fuel` bounds the number of steps. -/
def node (context : Context) (fuel : Nat) : Reading NodeId :=
  match fuel with
  | 0 => fail .expectedNode
  | n + 1 => do
    match ← peek with
    | some (.alias name) => skip; named name
    | _ =>
      let p ← properties
      let inBlock := context ≠ .flow
      match ← peek with
      | some (.scalar text plain) => skip; addScalar p plain text
      | some .openSequence => addSequence p do skip; flowItems n true
      | some .openMapping => addMapping p do skip; flowEntries n true
      | t =>
        if context = .entry && t = some .blockEntry then addSequence p (entryItems n)
        else if inBlock && t = some .blockSequence then addSequence p do skip; blockItems n
        else if inBlock && t = some .blockMapping then addMapping p do skip; blockEntries n
        else if p.anchor.isSome || p.tag.isSome then addScalar p true ""
        else fail .expectedNode

/-- The node at the next token, or an empty one if one of `stops` comes next. -/
def optional (context : Context) (stops : List Token) (fuel : Nat) : Reading NodeId :=
  match fuel with
  | 0 => fail .expectedNode
  | n + 1 => do if ← nextIn stops then addEmpty else node context n

/-- The items of an indented sequence. -/
def blockItems (fuel : Nat) : Reading (List NodeId) :=
  match fuel with
  | 0 => fail .expectedBlockEnd
  | n + 1 => do
    match ← peek with
    | some .blockEntry =>
      skip
      let item ← optional .block [.blockEntry, .blockEnd] n
      return item :: (← blockItems n)
    | some .blockEnd => skip; return []
    | _ => fail .expectedBlockEnd

/-- The items of a sequence that is not indented within its mapping. -/
def entryItems (fuel : Nat) : Reading (List NodeId) :=
  match fuel with
  | 0 => return []
  | n + 1 => do
    match ← peek with
    | some .blockEntry =>
      skip
      let item ← optional .block [.blockEntry, .key, .value, .blockEnd] n
      return item :: (← entryItems n)
    | _ => return []

/-- The entries of a block mapping. -/
def blockEntries (fuel : Nat) : Reading (List Entry) :=
  match fuel with
  | 0 => fail .expectedBlockEnd
  | n + 1 => do
    match ← peek with
    | some .key =>
      skip
      let k ← optional .entry [.key, .value, .blockEnd] n
      let v ← valueOf .entry [.key, .value, .blockEnd] n
      return (k, v) :: (← blockEntries n)
    | some .blockEnd => skip; return []
    | _ => fail .expectedBlockEnd

/-- The value behind a key: an empty one if no colon comes next. -/
def valueOf (context : Context) (stops : List Token) (fuel : Nat) : Reading NodeId :=
  match fuel with
  | 0 => fail .expectedNode
  | n + 1 => do
    if ← nextIs .value then
      skip
      optional context stops n
    else addEmpty

/-- The items of a sequence in brackets. An item with a key is a mapping of its own. -/
def flowItems (fuel : Nat) (first : Bool) : Reading (List NodeId) :=
  match fuel with
  | 0 => fail .expectedSequenceEnd
  | n + 1 => do
    if ← nextIs .closeSequence then skip; return []
    if !first then
      if ← nextIs .flowEntry then skip else fail .expectedSequenceEnd
    if ← nextIs .key then
      let item ← addMapping ⟨none, none⟩ do
        skip
        let k ← optional .flow [.value, .flowEntry, .closeSequence] n
        let v ← valueOf .flow [.flowEntry, .closeSequence] n
        return [(k, v)]
      return item :: (← flowItems n false)
    if ← nextIs .closeSequence then skip; return []
    let item ← node .flow n
    return item :: (← flowItems n false)

/-- The entries of a mapping in braces. -/
def flowEntries (fuel : Nat) (first : Bool) : Reading (List Entry) :=
  match fuel with
  | 0 => fail .expectedMappingEnd
  | n + 1 => do
    if ← nextIs .closeMapping then skip; return []
    if !first then
      if ← nextIs .flowEntry then skip else fail .expectedMappingEnd
    if ← nextIs .key then
      skip
      let k ← optional .flow [.value, .flowEntry, .closeMapping] n
      let v ← valueOf .flow [.flowEntry, .closeMapping] n
      return (k, v) :: (← flowEntries n false)
    if ← nextIs .closeMapping then skip; return []
    let k ← node .flow n
    let v ← addEmpty
    return (k, v) :: (← flowEntries n false)

end

/-! ## Documents -/

/-- The handles that need no declaration. -/
def usualHandles : List (String × String) := [("!", "!"), ("!!", standardTag "")]

/-- The directives at the next tokens, which declare handles; `version` says that a version has been
given. -/
def directives (fuel : Nat) (version : Bool) : Reading Unit :=
  match fuel with
  | 0 => return ()
  | n + 1 => do
    match ← peek with
    | some (.directive (.version major)) =>
      skip
      if version then fail .repeatedDirective
      else if major ≠ 1 then fail .otherVersion
      else directives n true
    | some (.directive (.tag h address)) =>
      skip
      if ((← get).handles.lookup h).isSome then fail .repeatedDirective
      else
        modify fun r => { r with handles := (h, address) :: r.handles }
        directives n version
    | some (.directive .other) => skip; directives n version
    | _ => return ()

/-- The directives in front of a document, and the line of hyphens that starts it. -/
def heading : Reading Unit := do
  modify fun r => { r with handles := [] }
  directives ((← get).tokens.list.length + 1) false
  if ← nextIs .documentStart then
    skip
    modify fun r => { r with handles := r.handles ++ usualHandles }
  else fail .expectedDocument

/-- Past the lines of dots behind a document. -/
def documentEnds (fuel : Nat) : Reading Unit :=
  match fuel with
  | 0 => return ()
  | n + 1 => do
    if ← nextIs .documentEnd then
      skip
      documentEnds n

/-- No second document may follow. -/
def finish : Reading Unit := do
  documentEnds ((← get).tokens.list.length + 1)
  if (← peek).isSome then
    heading
    fail .severalDocuments

/-- Whether a document that starts with a line of hyphens has no content. -/
def isBare : Option Token → Bool
  | none => true
  | some (.directive _) => true
  | some .documentStart => true
  | some .documentEnd => true
  | _ => false

/-- The root of the one document, if there is one. -/
def document : Reading (Option NodeId) := do
  let fuel := 4 * (← get).tokens.list.length + 4
  let root : Reading NodeId ←
    match ← peek with
    | none => return none
    | some (.directive _) | some .documentStart => do
      heading
      pure (if isBare (← peek) then addEmpty else node .block fuel)
    | some _ => pure (node .block fuel)
  let id ← root
  finish
  return some id

end Reading

/-- The graph of the one document of a list of tokens and its root, if there is a document. -/
def Graph.ofTokens? (ts : Tokens) : Except Error (Option (Graph × NodeId)) :=
  match Reading.document.run ⟨ts, [], Reading.usualHandles, .empty⟩ with
  | .error e => .error e
  | .ok (root, r) => .ok (root.map fun id => (r.graph, id))

end FeatureRun.Yaml
