import FeatureRun.Json.Basic
import FeatureRun.Text.Numeral
import FeatureRun.Text.Percent
import FeatureRun.Text.Search
import FeatureRun.Text.Surrogate

/-!
# Reading JSON

A recursive-descent reader that stops at the first fault and names its place by line, column and
offset. `NaN`, `Infinity` and `-Infinity` are read as numbers. How many digits a whole number may
have, and how deep arrays and objects may lie within each other, is said by the caller. Every
function returns the text it has not read.
-/
set_option autoImplicit false

namespace FeatureRun.Json

/-- What is wrong at a place of a JSON text. -/
inductive Problem where
  | expectingValue
  | expectingName
  | expectingColon
  | expectingComma
  | unterminatedString
  | controlCharacter
  | badEscape
  | badUnicodeEscape
  | extraData
  | byteOrderMark
  deriving DecidableEq, Repr

def Problem.message : Problem → String
  | .expectingValue => "Expecting value"
  | .expectingName => "Expecting property name enclosed in double quotes"
  | .expectingColon => "Expecting ':' delimiter"
  | .expectingComma => "Expecting ',' delimiter"
  | .unterminatedString => "Unterminated string starting at"
  | .controlCharacter => "Invalid control character at"
  | .badEscape => "Invalid \\escape"
  | .badUnicodeEscape => "Invalid \\uXXXX escape"
  | .extraData => "Extra data"
  | .byteOrderMark => "Unexpected UTF-8 BOM (decode using utf-8-sig)"

inductive Container where
  | array
  | object
  deriving DecidableEq, Repr

def Container.word : Container → String
  | .array => "array"
  | .object => "object"

/-- What is too much for a reader, however well formed it is. -/
inductive Excess where
  /-- A whole number with so many digits. -/
  | digits (count : Nat)
  /-- A container that lies too deep within others. -/
  | depth (of : Container)
  deriving DecidableEq, Repr

def Excess.message : Excess → String
  | .digits count => (Text.NumeralError.tooLong count).message
  | .depth of => "maximum recursion depth exceeded while decoding a JSON " ++ of.word ++
      " from a unicode string"

/-- How many digits a whole number may have, and how many containers may lie within each other. -/
structure Limits where
  digits : Option Nat
  levels : Option Nat

def Limits.unlimited : Limits := ⟨none, none⟩

/-- What is left of the limits within a container, if there may be one. -/
def Limits.within? (m : Limits) : Option Limits :=
  match m.levels with
  | none => some m
  | some 0 => none
  | some (n + 1) => some { m with levels := some n }

@[simp] theorem Limits.digits_unlimited : unlimited.digits = none := rfl

@[simp] theorem Limits.within?_unlimited : unlimited.within? = some unlimited := rfl

/-- Why reading stops: a problem `left` characters before the end of the text, or something that is
too much. -/
inductive Fault where
  | problem (what : Problem) (left : Nat)
  | excess (e : Excess)
  deriving DecidableEq, Repr

/-- A value read and the text after it. -/
abbrev Reading (α : Type) := Except Fault (α × List Char)

def fault {α : Type} (what : Problem) (here : List Char) : Reading α :=
  .error (.problem what here.length)

def isSpace (c : Char) : Bool := c == ' ' || c == '\t' || c == '\n' || c == '\r'

def skipSpace (cs : List Char) : List Char := cs.dropWhile isSpace

/-! ## Strings -/

/-- A part of a string: a character, or a UTF-16 unit given by its number. -/
inductive Piece where
  | char (c : Char)
  | unit (n : Nat)
  deriving DecidableEq, Repr

def simpleEscape? : Char → Option Char
  | '"' => some '"'
  | '\\' => some '\\'
  | '/' => some '/'
  | 'b' => some '\x08'
  | 'f' => some '\x0c'
  | 'n' => some '\n'
  | 'r' => some '\r'
  | 't' => some '\t'
  | _ => none

def unit? (a b c d : Char) : Option Nat :=
  match Text.Percent.hexValue? a, Text.Percent.hexValue? b, Text.Percent.hexValue? c,
    Text.Percent.hexValue? d with
  | some w, some x, some y, some z => some (((w * 16 + x) * 16 + y) * 16 + z)
  | _, _, _, _ => none

/-- The parts of a string up to its closing quote. `opened` is the text from its opening quote on.
Four hexadecimal digits must be followed by some character. -/
def stringPieces (opened : List Char) : List Char → Reading (List Piece)
  | [] => fault .unterminatedString opened
  | '"' :: rest => .ok ([], rest)
  | '\\' :: [] => fault .unterminatedString opened
  | '\\' :: 'u' :: a :: b :: c :: d :: rest =>
    match unit? a b c d, rest with
    | some n, _ :: _ =>
      (stringPieces opened rest).map fun (ps, more) => (.unit n :: ps, more)
    | _, _ => fault .badUnicodeEscape ('u' :: a :: b :: c :: d :: rest)
  | '\\' :: c :: rest =>
    if c = 'u' then fault .badUnicodeEscape (c :: rest)
    else
      match simpleEscape? c with
      | some e => (stringPieces opened rest).map fun (ps, more) => (.char e :: ps, more)
      | none => fault .badEscape ('\\' :: c :: rest)
  | c :: rest =>
    if c.toNat ≤ 0x1F then fault .controlCharacter (c :: rest)
    else (stringPieces opened rest).map fun (ps, more) => (.char c :: ps, more)

/-- Two units that form a surrogate pair become one character; a half without its partner stays. -/
def Piece.characters : List Piece → List Char
  | [] => []
  | .char c :: ps => c :: characters ps
  | .unit h :: .unit l :: ps =>
    if 0xD800 ≤ h ∧ h < 0xDC00 ∧ 0xDC00 ≤ l ∧ l < 0xE000 then
      Char.ofNat (0x10000 + (h - 0xD800) * 0x400 + (l - 0xDC00)) :: characters ps
    else Text.charOrStandIn h :: characters (.unit l :: ps)
  | .unit n :: ps => Text.charOrStandIn n :: characters ps

/-- The string whose opening quote has been read. -/
def stringBody (cs : List Char) : Reading String :=
  (stringPieces ('"' :: cs) cs).map fun (ps, rest) => (String.ofList (Piece.characters ps), rest)

/-! ## Numbers -/

def isAsciiDigit (c : Char) : Bool := '0' ≤ c && c ≤ '9'

def digitValues (cs : List Char) : List Nat := cs.map fun c => c.toNat - '0'.toNat

/-- The digits before the point: a single zero, or digits that start with another one. -/
def wholePart : List Char → Option (List Char × List Char)
  | '0' :: rest => some (['0'], rest)
  | c :: rest =>
    if isAsciiDigit c then
      some (c :: rest.takeWhile isAsciiDigit, rest.dropWhile isAsciiDigit)
    else none
  | [] => none

/-- The digits behind a point, if at least one follows it. -/
def fractionPart : List Char → Option (List Char × List Char)
  | '.' :: c :: rest =>
    if isAsciiDigit c then
      some (c :: rest.takeWhile isAsciiDigit, rest.dropWhile isAsciiDigit)
    else none
  | _ => none

/-- The exponent behind an `e`, if at least one digit stands there. -/
def exponentPart : List Char → Option (Int × List Char)
  | e :: rest =>
    if e = 'e' || e = 'E' then
      let (negative, body) := Text.takeSign rest
      let ds := body.takeWhile isAsciiDigit
      if ds.isEmpty then none
      else
        some (Text.signed negative (Text.ofDigits 10 (digitValues ds)), body.dropWhile isAsciiDigit)
    else none
  | [] => none

/-- A number; it is a whole number if neither a fraction nor an exponent follows. -/
def number (limits : Limits) (cs : List Char) : Reading Json :=
  let (negative, body) :=
    match cs with
    | '-' :: rest => (true, rest)
    | _ => (false, cs)
  match wholePart body with
  | none => fault .expectingValue cs
  | some (whole, rest) =>
    match fractionPart rest, exponentPart rest with
    | none, none =>
      if limits.digits.any fun most => whole.length > most then
        .error (.excess (.digits whole.length))
      else .ok (.int (Text.signed negative (Text.ofDigits 10 (digitValues whole))), rest)
    | some (fraction, rest), _ =>
      let (exponent, rest) := (exponentPart rest).getD (0, rest)
      let mantissa := Text.ofDigits 10 (digitValues (whole ++ fraction))
      .ok (.real (.finite ⟨negative, mantissa, exponent - fraction.length⟩), rest)
    | none, some (exponent, rest) =>
      .ok (.real (.finite ⟨negative, Text.ofDigits 10 (digitValues whole), exponent⟩), rest)

/-- The values that are written as a word. -/
def words : List (List Char × Json) :=
  [("null".toList, .null), ("true".toList, .bool true), ("false".toList, .bool false),
    ("NaN".toList, .real .nan), ("Infinity".toList, .real (.infinite false)),
    ("-Infinity".toList, .real (.infinite true))]

/-- A word or a number. -/
def atom (limits : Limits) (cs : List Char) : Reading Json :=
  match words.findSome? fun (w, v) => (Text.afterPrefix? w cs).map fun rest => (v, rest) with
  | some r => .ok r
  | none => number limits cs

/-! ## Values -/

mutual

/-- The value at the start of the text. `fuel` bounds the nesting and the number of items, an item
taking two units; twice the length of the text and one more is enough. -/
def value (limits : Limits) (fuel : Nat) (cs : List Char) : Reading Json :=
  match fuel, cs with
  | 0, _ => fault .expectingValue cs
  | _ + 1, '"' :: rest => (stringBody rest).map fun (s, more) => (.str s, more)
  | n + 1, '[' :: rest =>
    match limits.within?, skipSpace rest with
    | none, _ => .error (.excess (.depth .array))
    | some _, ']' :: more => .ok (.arr [], more)
    | some limits, here => (elements limits n here).map fun (vs, more) => (.arr vs, more)
  | n + 1, '{' :: rest =>
    match limits.within?, skipSpace rest with
    | none, _ => .error (.excess (.depth .object))
    | some _, '}' :: more => .ok (.obj [], more)
    | some limits, here => (members limits n here).map fun (fs, more) => (.obj fs, more)
  | _ + 1, cs => atom limits cs

/-- The items of an array that has at least one, up to its closing bracket. -/
def elements (limits : Limits) (fuel : Nat) (cs : List Char) : Reading (List Json) :=
  match fuel with
  | 0 => fault .expectingValue cs
  | n + 1 =>
    match value limits n cs with
    | .error f => .error f
    | .ok (v, rest) =>
      match skipSpace rest with
      | ']' :: more => .ok ([v], more)
      | ',' :: more =>
        (elements limits n (skipSpace more)).map fun (vs, last) => (v :: vs, last)
      | here => fault .expectingComma here

/-- The fields of an object that has at least one, up to its closing brace. -/
def members (limits : Limits) (fuel : Nat) (cs : List Char) :
    Reading (List (String × Json)) :=
  match fuel, cs with
  | n + 1, '"' :: rest =>
    match stringBody rest with
    | .error f => .error f
    | .ok (name, rest) =>
      match skipSpace rest with
      | ':' :: rest =>
        match value limits n (skipSpace rest) with
        | .error f => .error f
        | .ok (v, rest) =>
          match skipSpace rest with
          | '}' :: more => .ok ([(name, v)], more)
          | ',' :: more =>
            (members limits n (skipSpace more)).map fun (fs, last) => ((name, v) :: fs, last)
          | here => fault .expectingComma here
      | here => fault .expectingColon here
  | _, cs => fault .expectingName cs

end

/-! ## Texts -/

/-- Why a text is not read as JSON. -/
inductive ReadError where
  | malformed (what : Problem) (line column offset : Nat)
  | excess (e : Excess)
  deriving DecidableEq, Repr

def ReadError.message : ReadError → String
  | .malformed what line column offset =>
    what.message ++ ": line " ++ toString line ++ " column " ++ toString column ++ " (char " ++
      toString offset ++ ")"
  | .excess e => e.message

/-- A fault with its place in the whole text. -/
def Fault.locate (text : List Char) : Fault → ReadError
  | .excess e => .excess e
  | .problem what left =>
    let offset := text.length - left
    let before := text.take offset
    let column := (before.reverse.takeWhile (· ≠ '\n')).length + 1
    .malformed what (before.count '\n' + 1) column offset

/-- The one value of a text, with blanks allowed around it. -/
def document (limits : Limits) (cs : List Char) : Except Fault Json :=
  match cs with
  | '\uFEFF' :: _ => .error (.problem .byteOrderMark cs.length)
  | _ =>
    match value limits (2 * cs.length + 1) (skipSpace cs) with
    | .error f => .error f
    | .ok (v, rest) =>
      match skipSpace rest with
      | [] => .ok v
      | here => .error (.problem .extraData here.length)

/-- Reads a JSON text whose whole numbers have at most `Text.maxDigits` digits, with containers of
so many levels. -/
def read (levels : Nat) (s : String) : Except ReadError Json :=
  (document ⟨some Text.maxDigits, some levels⟩ s.toList).mapError (Fault.locate s.toList)

end FeatureRun.Json
