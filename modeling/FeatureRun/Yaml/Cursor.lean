import FeatureRun.Yaml.Error

/-!
# Places in a YAML text

A `Cursor` is what is left of the text together with the place reached: offset, line and column.
The character classes here take an optional character, `none` being the end of the text.
-/
set_option autoImplicit false

namespace FeatureRun.Yaml

def isBreak (c : Char) : Bool :=
  c == '\n' || c == '\r' || c.toNat == 0x85 || c.toNat == 0x2028 || c.toNat == 0x2029

/-- The end of a line, or of the text. -/
def endsLine : Option Char → Bool
  | none => true
  | some c => isBreak c

/-- The end of a line, or a space. -/
def endsWord : Option Char → Bool
  | none => true
  | some c => isBreak c || c == ' '

/-- The end of a line, a space or a tab. -/
def separates : Option Char → Bool
  | none => true
  | some c => isBreak c || c == ' ' || c == '\t'

/-- A letter, digit, hyphen or underscore of ASCII, as in the names of anchors and handles. -/
def isNameChar (c : Char) : Bool := c.isAlphanum || c == '-' || c == '_'

structure Cursor where
  rest : List Char
  index : Nat
  line : Nat
  column : Nat

namespace Cursor

def start (cs : List Char) : Cursor := ⟨cs, 0, 0, 0⟩

/-- The character at the cursor. -/
def here (c : Cursor) : Option Char := c.rest.head?

/-- The character `n` places further on. -/
def ahead (c : Cursor) (n : Nat) : Option Char := c.rest[n]?

/-- Past one character. A byte order mark takes up no column. -/
def next (c : Cursor) : Cursor :=
  match c.rest with
  | [] => c
  | ch :: rest =>
    if ch != '\r' && isBreak ch || ch == '\r' && rest.head? != some '\n' then
      ⟨rest, c.index + 1, c.line + 1, 0⟩
    else if ch = '\uFEFF' then ⟨rest, c.index + 1, c.line, c.column⟩
    else ⟨rest, c.index + 1, c.line, c.column + 1⟩

def skip (c : Cursor) : Nat → Cursor
  | 0 => c
  | n + 1 => c.next.skip n

/-- The longest stretch of characters with a property, and the place after it. -/
def span (c : Cursor) (p : Char → Bool) : List Char × Cursor :=
  let taken := c.rest.takeWhile p
  (taken, c.skip taken.length)

def skipWhile (c : Cursor) (p : Char → Bool) : Cursor := (c.span p).2

def skipSpaces (c : Cursor) : Cursor := c.skipWhile (· == ' ')

/-- Past a line break, if one stands here, and the text it counts as: a line feed, except that the
separators of Unicode stand for themselves. -/
def takeBreak (c : Cursor) : Option (Char × Cursor) :=
  match c.rest with
  | '\r' :: '\n' :: _ => some ('\n', c.skip 2)
  | ch :: _ =>
    if isBreak ch then
      some (if ch.toNat == 0x2028 || ch.toNat == 0x2029 then ch else '\n', c.next)
    else none
  | [] => none

/-- Past a comment, if one starts here. -/
def skipComment (c : Cursor) : Cursor :=
  if c.here = some '#' then c.skipWhile (fun ch => !isBreak ch) else c

/-- The rest of a line that may hold only spaces and a comment. -/
def finishLine? (c : Cursor) : Option Cursor :=
  let c := c.skipSpaces.skipComment
  if endsLine c.here then some ((c.takeBreak.map Prod.snd).getD c) else none

/-- Three hyphens or three dots that stand by themselves. -/
def atMarker (c : Cursor) (mark : Char) : Bool :=
  c.rest.take 3 == [mark, mark, mark] && separates (c.ahead 3)

def atSeparator (c : Cursor) : Bool := c.atMarker '-' || c.atMarker '.'

end Cursor
end FeatureRun.Yaml
