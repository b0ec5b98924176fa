import FeatureRun.Yaml.Scalar

/-!
# Tokens of a YAML text

Indentation and simple keys become explicit here: blocks are opened and closed by tokens of their
own, and a key that is only recognised by the colon behind it gets its token at the place where it
began. A `Scan` is the state in between: the place reached, the tokens so far with the last one
first, the open blocks, and for each depth of flow collections the token that may still turn out to
begin a key. A text with a fault has all the tokens that are settled before the fault shows.
-/
set_option autoImplicit false

namespace FeatureRun.Yaml

inductive Token where
  | directive (d : Directive)
  | documentStart
  | documentEnd
  | blockSequence
  | blockMapping
  | blockEnd
  | openSequence
  | closeSequence
  | openMapping
  | closeMapping
  | blockEntry
  | flowEntry
  | key
  | value
  | alias (name : String)
  | anchor (name : String)
  | tag (t : TagText)
  | scalar (text : String) (plain : Bool)
  deriving DecidableEq, Repr

/-- A token that may begin a key: its number and its place. A required one must be followed by a
colon on its line. -/
structure SimpleKey where
  number : Nat
  required : Bool
  index : Nat
  line : Nat
  column : Nat

structure Scan where
  cursor : Cursor
  tokens : List Token
  depth : Nat
  indent : Int
  outer : List Int
  allowed : Bool
  keys : List (Nat × SimpleKey)

/-- The farthest that a colon may be from the beginning of a simple key. -/
def keyReach : Nat := 1024

namespace Scan

def start (cs : List Char) : Scan := ⟨.start cs, [], 0, -1, [], true, []⟩

def inFlow (s : Scan) : Bool := s.depth ≠ 0

def push (s : Scan) (t : Token) : Scan := { s with tokens := t :: s.tokens }

/-- Puts a token in front of the token with this number. -/
def insertAt (s : Scan) (number : Nat) (t : Token) : Scan :=
  let later := s.tokens.length - number
  { s with tokens := s.tokens.take later ++ t :: s.tokens.drop later }

def keyHere? (s : Scan) : Option SimpleKey := s.keys.lookup s.depth

def forgetKey (s : Scan) : Scan := { s with keys := s.keys.filter (·.1 ≠ s.depth) }

/-- Gives up the key that may have begun at this depth. -/
def dropKey (s : Scan) : Except Error Scan :=
  match s.keyHere? with
  | some k => if k.required then failing .missingColon else .ok s.forgetKey
  | none => .ok s

/-- The next token may begin a key. -/
def noteKey (s : Scan) : Except Error Scan :=
  if s.allowed then
    s.dropKey.map fun s =>
      let required := !s.inFlow && s.indent = s.cursor.column
      let k : SimpleKey :=
        ⟨s.tokens.length, required, s.cursor.index, s.cursor.line, s.cursor.column⟩
      { s with keys := (s.depth, k) :: s.keys }
  else .ok s

/-- Gives up the keys that began on an earlier line or too far back. -/
def dropStale (s : Scan) : Except Error Scan :=
  let stale (k : SimpleKey) : Bool :=
    k.line ≠ s.cursor.line || s.cursor.index - k.index > keyReach
  if s.keys.any fun (_, k) => stale k && k.required then failing .missingColon
  else .ok { s with keys := s.keys.filter fun (_, k) => !stale k }

/-- Closes the blocks that are indented further than `column`; flow collections ignore
indentation. -/
def unwind (s : Scan) (column : Int) : Scan :=
  if s.inFlow then s
  else
    let closed := (s.indent :: s.outer).takeWhile (column < ·)
    let left := (s.indent :: s.outer).drop closed.length
    { s with
      tokens := List.replicate closed.length .blockEnd ++ s.tokens
      indent := left.headD (-1)
      outer := left.tail }

/-- Opens a block at `column` if it is indented further than the one around it. -/
def deepen (s : Scan) (column : Nat) (opening : Scan → Scan) : Scan :=
  if s.indent < column then opening { s with indent := column, outer := s.indent :: s.outer }
  else s

/-- Past blanks, comments and line breaks; a break outside flow collections allows a key. -/
def toNext (fuel : Nat) (s : Scan) : Scan :=
  match fuel with
  | 0 => s
  | n + 1 =>
    let c := s.cursor.skipSpaces.skipComment
    match c.takeBreak with
    | none => { s with cursor := c }
    | some (_, after) => toNext n { s with cursor := after, allowed := s.allowed || !s.inFlow }

/-- A sign of one character. -/
def sign (s : Scan) (t : Token) : Scan := { s.push t with cursor := s.cursor.next }

/-- A token that ends all blocks: a directive or a separator of documents. -/
def atTop (s : Scan) : Except Error Scan :=
  (s.unwind (-1)).dropKey.map fun s => { s with allowed := false }

def documentMark (s : Scan) (t : Token) : Except Error Scan :=
  s.atTop.map fun s => { s.push t with cursor := s.cursor.skip 3 }

def openFlow (s : Scan) (t : Token) : Except Error Scan :=
  s.noteKey.map fun s => { s.sign t with depth := s.depth + 1, allowed := true }

def closeFlow (s : Scan) (t : Token) : Except Error Scan :=
  s.dropKey.map fun s => { s.sign t with depth := s.depth - 1, allowed := false }

def entryOfFlow (s : Scan) : Except Error Scan :=
  s.dropKey.map fun s => { s.sign .flowEntry with allowed := true }

def entryOfBlock (s : Scan) : Except Error Scan :=
  if !s.inFlow && !s.allowed then failing .misplacedEntry
  else
    let s := if s.inFlow then s else s.deepen s.cursor.column (·.push .blockSequence)
    s.dropKey.map fun s => { s.sign .blockEntry with allowed := true }

def explicitKey (s : Scan) : Except Error Scan :=
  if !s.inFlow && !s.allowed then failing .misplacedKey
  else
    let s := if s.inFlow then s else s.deepen s.cursor.column (·.push .blockMapping)
    s.dropKey.map fun s => { s.sign .key with allowed := !s.inFlow }

/-- A colon: it turns the token that may begin a key into one, or else belongs to an explicit key or
to an empty one. -/
def colon (s : Scan) : Except Error Scan :=
  match s.keyHere? with
  | some k =>
    let s := s.forgetKey.insertAt k.number .key
    let s := if s.inFlow then s else s.deepen k.column (·.insertAt k.number .blockMapping)
    .ok { s.sign .value with allowed := false }
  | none =>
    if !s.inFlow && !s.allowed then failing .misplacedValue
    else
      let s := if s.inFlow then s else s.deepen s.cursor.column (·.push .blockMapping)
      s.dropKey.map fun s => { s.sign .value with allowed := !s.inFlow }

/-- A token that may begin a key, read by `read`. -/
def keyed (s : Scan) (read : Cursor → Read Token) : Except Error Scan :=
  match s.noteKey with
  | .error e => .error e
  | .ok s => (read s.cursor).map fun (t, c) => { s.push t with cursor := c, allowed := false }

def plain (s : Scan) : Except Error Scan :=
  s.noteKey.map fun s =>
    let (text, broken, c) := readPlain s.inFlow (s.indent + 1) s.cursor
    { s.push (.scalar text true) with cursor := c, allowed := broken }

def block (s : Scan) (folded : Bool) : Except Error Scan :=
  match s.dropKey with
  | .error e => .error e
  | .ok s =>
    (readBlock folded s.indent s.cursor).map fun (text, c) =>
      { s.push (.scalar text false) with cursor := c, allowed := true }

def readScalar (quote : Char) (c : Cursor) : Read Token :=
  (readQuoted quote c).map fun (text, after) => (.scalar text false, after)

/-- A plain scalar may start here: not with a sign, unless the sign is a hyphen, or outside flow
collections a question mark or a colon, with no blank behind it. -/
def startsPlain (s : Scan) (c : Char) : Bool :=
  !(separates (some c) || "-?:,[]\x7b\x7d#&*!|>'\"%@`".toList.contains c) ||
    (!separates (s.cursor.ahead 1) && (c == '-' || !s.inFlow && (c == '?' || c == ':')))

/-- The token that starts with `c` at the cursor. -/
def token (s : Scan) (c : Char) : Except Error Scan :=
  let atMargin := s.cursor.column = 0
  let alone := separates (s.cursor.ahead 1)
  if c = '%' && atMargin then
    match s.atTop with
    | .error e => .error e
    | .ok s =>
      (readDirective s.cursor).map fun (d, after) =>
        { s.push (.directive d) with cursor := after }
  else if atMargin && s.cursor.atMarker '-' then s.documentMark .documentStart
  else if atMargin && s.cursor.atMarker '.' then s.documentMark .documentEnd
  else if c = '[' then s.openFlow .openSequence
  else if c = '\x7b' then s.openFlow .openMapping
  else if c = ']' then s.closeFlow .closeSequence
  else if c = '\x7d' then s.closeFlow .closeMapping
  else if c = ',' then s.entryOfFlow
  else if c = '-' && alone then s.entryOfBlock
  else if c = '?' && (s.inFlow || alone) then s.explicitKey
  else if c = ':' && (s.inFlow || alone) then s.colon
  else if c = '*' then
    s.keyed fun c => (readName c).map fun (name, after) => (.alias name, after)
  else if c = '&' then
    s.keyed fun c => (readName c).map fun (name, after) => (.anchor name, after)
  else if c = '!' then s.keyed fun c => (readTag c).map fun (t, after) => (.tag t, after)
  else if c = '|' && !s.inFlow then s.block false
  else if c = '>' && !s.inFlow then s.block true
  else if c = '\'' || c = '"' then s.keyed (readScalar c)
  else if s.startsPlain c then s.plain
  else failing (.noToken c)

/-- Past the next token; at the end of the text, past the ends of all blocks. Also says whether
there was a token. -/
def advance (fuel : Nat) (s : Scan) : Except Error (Scan × Bool) := do
  let s ← (s.toNext fuel).dropStale
  let s := s.unwind s.cursor.column
  match s.cursor.here with
  | some c => return (← (← s.token c).dropStale, true)
  | none => return (← s.atTop, false)

/-- The tokens in front of the first one that may still turn out to begin a key. -/
def settled (s : Scan) : List Token :=
  let ts := s.tokens.reverse
  match (s.keys.map fun (_, k) => k.number).min? with
  | some n => ts.take n
  | none => ts

end Scan

/-- The tokens of a text, or with a fault those before it. -/
structure Tokens where
  list : List Token
  fault : Option Error

/-- All tokens from here on. -/
def Scan.run (fuel : Nat) (s : Scan) : Tokens :=
  match fuel with
  | 0 => ⟨s.settled, none⟩
  | n + 1 =>
    match s.advance (n + 1) with
    | .error e => ⟨s.settled, some e⟩
    | .ok (s, true) => s.run n
    | .ok (s, false) => ⟨s.tokens.reverse, none⟩

/-- Line feeds, tabs and the characters that can be shown. -/
def isAllowed (c : Char) : Bool :=
  let n := c.toNat
  n == 9 || n == 10 || n == 13 || (0x20 ≤ n && n ≤ 0x7E) || n == 0x85 ||
    (0xA0 ≤ n && n ≤ 0xD7FF) || (0xE000 ≤ n && n ≤ 0xFFFD) || 0x10000 ≤ n

/-- The tokens of a text; a byte order mark at its very start is passed over. -/
def Tokens.ofList (cs : List Char) : Tokens :=
  match cs.find? (fun c => !isAllowed c) with
  | some c => ⟨[], some (.fault (.unprintable c))⟩
  | none =>
    let s := Scan.start cs
    let s := if cs.head? = some '\uFEFF' then { s with cursor := s.cursor.next } else s
    s.run (cs.length + 1)

end FeatureRun.Yaml
