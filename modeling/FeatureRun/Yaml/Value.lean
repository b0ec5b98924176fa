import FeatureRun.Yaml.Graph
import FeatureRun.Yaml.Moment
import FeatureRun.Yaml.Number

/-!
# Values of YAML nodes

What a node stands for by its tag. The type `Value` leaves open what the parts of a collection are:
within a document they are numbers of nodes, and `Value.map` puts in something else.
-/
set_option autoImplicit false

namespace FeatureRun.Yaml

/-- A value whose parts are of type `α`. Mappings keep their entries in order, those merged from
other mappings first; a repeated key is kept, and whoever reads the mapping lets the last value
count. -/
inductive Value (α : Type) where
  | null
  | bool (value : Bool)
  | int (value : Int)
  | float (value : Float)
  | str (value : String)
  | moment (value : Moment)
  /-- Bytes, as the characters that encode them. -/
  | binary (text : String)
  | sequence (items : List α)
  | mapping (entries : List (α × α))
  | pairs (entries : List (α × α))
  | set (members : List α)

/-- The value with other parts. -/
def Value.map {α β : Type} (f : α → β) : Value α → Value β
  | .null => .null
  | .bool b => .bool b
  | .int n => .int n
  | .float x => .float x
  | .str s => .str s
  | .moment m => .moment m
  | .binary s => .binary s
  | .sequence items => .sequence (items.map f)
  | .mapping entries => .mapping (entries.map fun (k, v) => (f k, f v))
  | .pairs entries => .pairs (entries.map fun (k, v) => (f k, f v))
  | .set members => .set (members.map f)

/-! ## Scalars -/

/-- A character that stands for six bits. -/
def isSextet (c : Char) : Bool :=
  'A' ≤ c && c ≤ 'Z' || 'a' ≤ c && c ≤ 'z' || '0' ≤ c && c ≤ '9' || c == '+' || c == '/'

/-- Characters that encode bytes: groups of four, the last of which may be filled up with equals
signs. Anything after such a group and other ASCII characters in between are passed over. `filled`
is the number of characters in the open group, `pads` that of the equals signs just before. -/
def isBinary (filled pads : Nat) : List Char → Bool
  | [] => filled = 0
  | c :: cs =>
    if 0x80 ≤ c.toNat then false
    else if c = '=' then
      if 2 ≤ filled && 4 ≤ filled + pads + 1 then cs.all (·.toNat < 0x80)
      else isBinary filled (if 2 ≤ filled then pads + 1 else pads) cs
    else if isSextet c then isBinary ((filled + 1) % 4) 0 cs
    else isBinary filled pads cs

/-- The truth value of a word, in upper or lower case. -/
def readBool (text : String) : Refused Bool :=
  let word := Text.lower text
  if ["yes", "true", "on"].contains word then .ok true
  else if ["no", "false", "off"].contains word then .ok false
  else .error (.unknownWord word)

/-- How the text of a scalar is read. -/
inductive ScalarKind where
  | null
  | bool
  | int
  | float
  | binary
  | timestamp
  | str
  deriving DecidableEq, Repr

def ScalarKind.read {α : Type} (kind : ScalarKind) (text : String) : Except Error (Value α) :=
  let refused (r : Refused (Value α)) : Except Error (Value α) := r.mapError .refusal
  match kind with
  | .null => .ok .null
  | .bool => refused ((readBool text).map .bool)
  | .int => refused ((readInt text).map .int)
  | .float => refused ((readFloat text).map .float)
  | .binary =>
    if isBinary 0 0 text.toList then .ok (.binary text)
    else .error (.fault (.wrongKind (standardTag "binary")))
  | .timestamp => refused ((readMoment text).map .moment)
  | .str => .ok (.str text)

/-! ## Collections -/

inductive CollectionKind where
  | seq
  | map
  | set
  /-- A sequence of mappings with one entry each. -/
  | pairs
  deriving DecidableEq, Repr

/-- What a tag says about its node. -/
inductive TagKind where
  | scalar (kind : ScalarKind)
  | collection (kind : CollectionKind)
  deriving DecidableEq, Repr

def tagKinds : List (String × TagKind) :=
  [("null", .scalar .null), ("bool", .scalar .bool), ("int", .scalar .int),
    ("float", .scalar .float), ("binary", .scalar .binary), ("timestamp", .scalar .timestamp),
    ("str", .scalar .str), ("seq", .collection .seq), ("map", .collection .map),
    ("set", .collection .set), ("omap", .collection .pairs), ("pairs", .collection .pairs)]

/-- The kind of a tag, if it is a standard one. -/
def tagKind? (tag : String) : Option TagKind :=
  (tagKinds.find? fun (name, _) => standardTag name = tag).map Prod.snd

end FeatureRun.Yaml
