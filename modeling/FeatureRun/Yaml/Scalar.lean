import FeatureRun.Yaml.Tag

/-!
# The three forms of scalar

Plain scalars, quoted scalars and block scalars, read from a cursor. Line breaks within plain and
quoted scalars are folded: one break becomes a space, and of several all but the first are kept.
-/
set_option autoImplicit false

namespace FeatureRun.Yaml

/-! ## Plain scalars -/

def isFlowSign (c : Char) : Bool := ",[]\x7b\x7d".toList.contains c

/-- How many characters of a plain scalar stand here without a blank between them. -/
def plainLength (flow : Bool) : List Char → Nat
  | [] => 0
  | c :: rest =>
    let ends :=
      separates (some c) ||
        (c == ':' && (separates rest.head? || flow && rest.head?.any isFlowSign)) ||
        (flow && (c == '?' || isFlowSign c))
    if ends then 0 else plainLength flow rest + 1

/-- The line breaks after the first one, spaces being skipped; nothing if a separator of documents
comes first. -/
def laterBreaks (fuel : Nat) (c : Cursor) : Option (List Char) × Cursor :=
  match fuel with
  | 0 => (some [], c)
  | n + 1 =>
    if c.here = some ' ' then laterBreaks n c.next
    else
      match c.takeBreak with
      | none => (some [], c)
      | some (ch, after) =>
        if after.atSeparator then (none, after)
        else
          let (more, last) := laterBreaks n after
          (more.map (ch :: ·), last)

/-- What a first line break and those after it stand for. -/
def foldBreaks (first : Char) (later : List Char) : List Char :=
  if first ≠ '\n' then first :: later
  else if later.isEmpty then [' ']
  else later

/-- What stands between two parts of a plain scalar, whether it holds a line break, and the place
after it. No text means that the scalar ends here. -/
def plainGap (c : Cursor) : List Char × Bool × Cursor :=
  let (spaces, after) := c.span (· == ' ')
  match after.takeBreak with
  | none => (spaces, false, after)
  | some (first, after) =>
    if after.atSeparator then ([], true, after)
    else
      match laterBreaks after.rest.length after with
      | (none, last) => ([], true, last)
      | (some later, last) => (foldBreaks first later, true, last)

/-- A plain scalar whose continuation lines are indented by at least `indent`. Also says whether it
ended behind a line break. -/
def plainFrom (flow : Bool) (indent : Int) (fuel : Nat) (gap : List Char) (broken : Bool)
    (c : Cursor) : List Char × Bool × Cursor :=
  match fuel with
  | 0 => ([], broken, c)
  | n + 1 =>
    if c.here = some '#' then ([], broken, c)
    else
      let k := plainLength flow c.rest
      if k = 0 then ([], broken, c)
      else
        let part := gap ++ c.rest.take k
        let (text, broken, after) := plainGap (c.skip k)
        if text.isEmpty || after.here = some '#' || (!flow && after.column < indent) then
          (part, broken, after)
        else
          let (more, broken, last) := plainFrom flow indent n text broken after
          (part ++ more, broken, last)

def readPlain (flow : Bool) (indent : Int) (c : Cursor) : String × Bool × Cursor :=
  let (text, broken, after) := plainFrom flow indent (c.rest.length + 1) [] false c
  (String.ofList text, broken, after)

/-! ## Quoted scalars -/

/-- The escapes of a double-quoted scalar that stand for one fixed character. -/
def escapes : List (Char × Char) :=
  [('0', '\x00'), ('a', '\x07'), ('b', '\x08'), ('t', '\t'), ('\t', '\t'), ('n', '\n'),
    ('v', '\x0b'), ('f', '\x0c'), ('r', '\r'), ('e', '\x1b'), (' ', ' '), ('"', '"'),
    ('\\', '\\'), ('/', '/'), ('N', '\u0085'), ('_', '\u00a0'), ('L', '\u2028'), ('P', '\u2029')]

/-- How many hexadecimal digits follow these escapes. -/
def codeWidth? : Char → Option Nat
  | 'x' => some 2
  | 'u' => some 4
  | 'U' => some 8
  | _ => none

def hexNumber? (cs : List Char) : Option Nat :=
  cs.foldlM (fun n c => (Text.Percent.hexValue? c).map (n * 16 + ·)) 0

/-- The line breaks of a quoted scalar after the first one. -/
def quotedBreaks (fuel : Nat) (c : Cursor) : Read (List Char) :=
  match fuel with
  | 0 => .ok ([], c)
  | n + 1 =>
    if c.atSeparator then failing .separatorInQuote
    else
      let c := c.skipWhile fun ch => ch == ' ' || ch == '\t'
      match c.takeBreak with
      | none => .ok ([], c)
      | some (ch, after) =>
        (quotedBreaks n after).map fun (more, last) => (ch :: more, last)

/-- The blanks and breaks at the cursor, folded. -/
def quotedGap (c : Cursor) : Read (List Char) :=
  let (spaces, after) := c.span fun ch => ch == ' ' || ch == '\t'
  match after.takeBreak with
  | some (first, after) =>
    (quotedBreaks (after.rest.length + 1) after).map fun (later, last) =>
      (foldBreaks first later, last)
  | none => if after.here.isNone then failing .openQuote else .ok (spaces, after)

/-- What the escape behind a backslash stands for. -/
def readEscape (c : Cursor) : Read (List Char) :=
  match c.here with
  | none => failing .badEscape
  | some ch =>
    match escapes.lookup ch, codeWidth? ch with
    | some e, _ => .ok ([e], c.next)
    | none, some width =>
      let digits := c.next.rest.take width
      match hexNumber? digits with
      | some n =>
        if digits.length < width then failing .badEscape
        else if 0x80000000 ≤ n then .error (.refusal .noCode)
        else if 0x110000 ≤ n then .error (.refusal .noCharacter)
        else .ok ([Text.charOrStandIn n], c.next.skip width)
      | none => failing .badEscape
    | none, none =>
      match c.takeBreak with
      | some (_, after) => quotedBreaks (after.rest.length + 1) after
      | none => failing .badEscape

/-- The text up to the closing quote. -/
def quotedFrom (quote : Char) (fuel : Nat) (c : Cursor) : Read (List Char) :=
  match fuel, c.here with
  | 0, _ => failing .openQuote
  | _ + 1, none => failing .openQuote
  | n + 1, some ch =>
    let part : Option (Read (List Char)) :=
      if ch = quote then
        if quote = '\'' && c.ahead 1 = some '\'' then some (.ok (['\''], c.skip 2)) else none
      else if ch = '\\' && quote = '"' then some (readEscape c.next)
      else if separates (some ch) then some (quotedGap c)
      else some (.ok ([ch], c.next))
    match part with
    | none => .ok ([], c.next)
    | some (.error e) => .error e
    | some (.ok (text, after)) =>
      (quotedFrom quote n after).map fun (more, last) => (text ++ more, last)

/-- The quoted scalar whose opening quote stands at the cursor. -/
def readQuoted (quote : Char) (c : Cursor) : Read String :=
  (quotedFrom quote (c.rest.length + 1) c.next).map fun (text, after) =>
    (String.ofList text, after)

/-! ## Block scalars -/

/-- What becomes of the line breaks at the end of a block scalar. -/
inductive Chomping where
  | strip
  | clip
  | keep
  deriving DecidableEq, Repr

def chomping? : Option Char → Option Chomping
  | some '+' => some .keep
  | some '-' => some .strip
  | _ => none

def increment? : Option Char → Option Nat
  | some c => if isAsciiDigit c then some (c.toNat - '0'.toNat) else none
  | none => none

/-- The two signs behind the sign of a block scalar, in either order, and the rest of that line. -/
def readBlockHeader (c : Cursor) : Read (Chomping × Option Nat) :=
  let signs : Chomping × Option Nat × Cursor :=
    match chomping? c.here with
    | some k =>
      match increment? c.next.here with
      | some n => (k, some n, c.skip 2)
      | none => (k, none, c.next)
    | none =>
      match increment? c.here with
      | some n =>
        match chomping? c.next.here with
        | some k => (k, some n, c.skip 2)
        | none => (.clip, some n, c.next)
      | none => (.clip, none, c)
  let (k, n, after) := signs
  if n = some 0 || !endsWord after.here then failing .badBlockHeader
  else
    match after.finishLine? with
    | some last => .ok ((k, n), last)
    | none => failing .badBlockHeader

/-- The line breaks before the first line that is not empty, and the widest indentation seen. -/
def firstBreaks (fuel : Nat) (widest : Nat) (c : Cursor) : List Char × Nat × Cursor :=
  match fuel with
  | 0 => ([], widest, c)
  | n + 1 =>
    if c.here = some ' ' then firstBreaks n (max widest c.next.column) c.next
    else
      match c.takeBreak with
      | none => ([], widest, c)
      | some (ch, after) =>
        let (more, w, last) := firstBreaks n widest after
        (ch :: more, w, last)

/-- Past the spaces of an indentation of `indent`. -/
def indentTo (indent : Nat) (fuel : Nat) (c : Cursor) : Cursor :=
  match fuel with
  | 0 => c
  | n + 1 => if c.column < indent && c.here = some ' ' then indentTo indent n c.next else c

/-- The line breaks up to a line that is not empty, and the place where its text may start. -/
def blockBreaks (indent : Nat) (fuel : Nat) (c : Cursor) : List Char × Cursor :=
  let c := indentTo indent indent c
  match fuel with
  | 0 => ([], c)
  | n + 1 =>
    match c.takeBreak with
    | none => ([], c)
    | some (ch, after) =>
      let (more, last) := blockBreaks indent n after
      (ch :: more, last)

/-- What is left at the end of a block scalar: the break of its last line and those after it. -/
structure BlockEnd where
  lineBreak : List Char
  breaks : List Char
  cursor : Cursor

def isIndent (c : Option Char) : Bool := c == some ' ' || c == some '\t'

/-- The lines of a block scalar that are indented by `indent`; `breaks` stand before the first. -/
def blockLines (folded : Bool) (indent : Nat) (fuel : Nat) (lineBreak breaks : List Char)
    (c : Cursor) : List Char × BlockEnd :=
  match fuel with
  | 0 => ([], ⟨lineBreak, breaks, c⟩)
  | n + 1 =>
    if c.column ≠ indent || c.here.isNone then ([], ⟨lineBreak, breaks, c⟩)
    else
      let (text, after) := c.span fun ch => !isBreak ch
      let (lineBreak, after) :=
        match after.takeBreak with
        | some (ch, next) => ([ch], next)
        | none => ([], after)
      let (later, next) := blockBreaks indent after.rest.length after
      let part := breaks ++ text
      if next.column ≠ indent || next.here.isNone then (part, ⟨lineBreak, later, next⟩)
      else
        let between :=
          if folded && lineBreak = ['\n'] && !isIndent c.here && !isIndent next.here then
            if later.isEmpty then [' '] else []
          else lineBreak
        let (more, stop) := blockLines folded indent n lineBreak later next
        (part ++ between ++ more, stop)

/-- The block scalar whose sign stands at the cursor, within a block indented by `parent`. -/
def readBlock (folded : Bool) (parent : Int) (c : Cursor) : Read String :=
  match readBlockHeader c.next with
  | .error e => .error e
  | .ok ((chomping, increment), after) =>
    let least := (max (parent + 1) 1).toNat
    let (breaks, indent, first) :=
      match increment with
      | none =>
        let (breaks, widest, first) := firstBreaks after.rest.length 0 after
        (breaks, max least widest, first)
      | some n =>
        let indent := least + n - 1
        let (breaks, first) := blockBreaks indent after.rest.length after
        (breaks, indent, first)
    let (text, stop) := blockLines folded indent (after.rest.length + 1) [] breaks first
    let tail :=
      match chomping with
      | .strip => []
      | .clip => stop.lineBreak
      | .keep => stop.lineBreak ++ stop.breaks
    .ok (String.ofList (text ++ tail), stop.cursor)

end FeatureRun.Yaml
