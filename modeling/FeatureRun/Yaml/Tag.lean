import FeatureRun.Yaml.Cursor
import FeatureRun.Text.Percent

/-!
# Names and tags in a YAML text

Anchors and aliases, tag handles and tag addresses, and the directives that declare handles.
-/
set_option autoImplicit false

namespace FeatureRun.Yaml

/-- What has been read, and the place after it. -/
abbrev Read (α : Type) := Except Error (α × Cursor)

def failing {α : Type} (f : Fault) : Except Error α := .error (.fault f)

/-- Where an anchor's or alias's name may end. -/
def endsName : Option Char → Bool
  | none => true
  | some c => separates (some c) || "?:,]\x7d%@`".toList.contains c

/-- The name behind the sign of an anchor or an alias. -/
def readName (c : Cursor) : Read String :=
  let (name, after) := c.next.span isNameChar
  if name.isEmpty || !endsName after.here then failing .badName
  else .ok (String.ofList name, after)

/-- A handle: an exclamation mark, or a name between two of them. -/
def readHandle (c : Cursor) : Read String :=
  if c.here ≠ some '!' then failing .badTag
  else if c.ahead 1 = some ' ' then .ok ("!", c.next)
  else
    let (name, after) := c.next.span isNameChar
    if after.here = some '!' then .ok (String.ofList ('!' :: name ++ ['!']), after.next)
    else failing .badTag

def isAddressChar (c : Char) : Bool :=
  c.isAlphanum || "-;/?:@&=+$,_.!~*'()[]".toList.contains c

/-- The bytes written as percent signs with two hexadecimal digits each. -/
def readEscapes (fuel : Nat) (c : Cursor) : Read (List UInt8) :=
  match fuel, c.rest with
  | n + 1, '%' :: a :: b :: _ =>
    match Text.Percent.byte? a b with
    | some x => (readEscapes n (c.skip 3)).map fun (xs, after) => (x :: xs, after)
    | none => failing .badTag
  | _, '%' :: _ => failing .badTag
  | _, _ => .ok ([], c)

/-- The characters of a tag's address, with percent signs decoded. -/
def readAddressFrom (fuel : Nat) (c : Cursor) : Read (List Char) :=
  match fuel with
  | 0 => .ok ([], c)
  | n + 1 =>
    let (plain, after) := c.span isAddressChar
    if after.here = some '%' then
      match readEscapes after.rest.length after with
      | .error e => .error e
      | .ok (bytes, after) =>
        match Text.Utf8.decode bytes with
        | .error _ => failing .badTag
        | .ok s =>
          (readAddressFrom n after).map fun (more, last) => (plain ++ s.toList ++ more, last)
    else .ok (plain, after)

def readAddress (c : Cursor) : Read String :=
  match readAddressFrom (c.rest.length + 1) c with
  | .error e => .error e
  | .ok (cs, after) =>
    if after.index = c.index then failing .badTag else .ok (String.ofList cs, after)

/-- A tag as written: an optional handle and what follows it. -/
structure TagText where
  handle : Option String
  suffix : String
  deriving DecidableEq, Repr

/-- An exclamation mark occurs before the end of the word. -/
def hasHandle (c : Cursor) : Bool :=
  (c.rest.takeWhile fun ch => !endsWord (some ch)).contains '!'

/-- The tag whose exclamation mark stands at the cursor. -/
def readTag (c : Cursor) : Read TagText :=
  let finish (handle : Option String) (r : Read String) : Read TagText :=
    match r with
    | .error e => .error e
    | .ok (suffix, after) =>
      if endsWord after.here then .ok (⟨handle, suffix⟩, after) else failing .badTag
  if c.ahead 1 = some '<' then
    match readAddress (c.skip 2) with
    | .error e => .error e
    | .ok (suffix, after) =>
      if after.here = some '>' then finish none (.ok (suffix, after.next)) else failing .badTag
  else if separates (c.ahead 1) then finish none (.ok ("!", c.next))
  else if hasHandle c.next then
    match readHandle c with
    | .error e => .error e
    | .ok (handle, after) => finish (some handle) (readAddress after)
  else finish (some "!") (readAddress c.next)

/-- A line that starts with a percent sign. -/
inductive Directive where
  | version (major : Nat)
  | tag (handle address : String)
  | other
  deriving DecidableEq, Repr

def isAsciiDigit (c : Char) : Bool := '0' ≤ c && c ≤ '9'

def readVersionNumber (c : Cursor) : Read Nat :=
  let (ds, after) := c.span isAsciiDigit
  if ds.isEmpty then failing .badDirective
  else
    match Text.readInt (String.ofList ds) with
    | .ok n => .ok (n.toNat, after)
    | .error e => .error (.refusal (.numeral e))

def readVersion (c : Cursor) : Read Directive :=
  match readVersionNumber c.skipSpaces with
  | .error e => .error e
  | .ok (major, after) =>
    if after.here ≠ some '.' then failing .badDirective
    else
      match readVersionNumber after.next with
      | .error e => .error e
      | .ok (_, after) =>
        if endsWord after.here then .ok (.version major, after) else failing .badDirective

def readTagDirective (c : Cursor) : Read Directive :=
  match readHandle c.skipSpaces with
  | .error e => .error e
  | .ok (handle, after) =>
    if after.here ≠ some ' ' then failing .badDirective
    else
      match readAddress after.skipSpaces with
      | .error e => .error e
      | .ok (address, after) =>
        if endsWord after.here then .ok (.tag handle address, after) else failing .badDirective

/-- The directive whose percent sign stands at the cursor, with its whole line. -/
def readDirective (c : Cursor) : Read Directive :=
  let (name, after) := c.next.span isNameChar
  if name.isEmpty || !endsWord after.here then failing .badDirective
  else
    let body : Read Directive :=
      if name = "YAML".toList then readVersion after
      else if name = "TAG".toList then readTagDirective after
      else .ok (.other, after.skipWhile fun ch => !isBreak ch)
    match body with
    | .error e => .error e
    | .ok (d, after) =>
      match after.finishLine? with
      | some last => .ok (d, last)
      | none => failing .badDirective

end FeatureRun.Yaml
