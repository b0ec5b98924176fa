import FeatureRun.Yaml.Tag

/-!
# Tags of plain scalars

A plain scalar without a tag is a number, a truth value, a date, null or one of the special keys if
its text has that form, and a string otherwise.
-/
set_option autoImplicit false

namespace FeatureRun.Yaml

/-- The tags of the YAML type repository. -/
def standardTag (name : String) : String := "tag:yaml.org,2002:" ++ name

def trueWords : List String :=
  ["yes", "Yes", "YES", "true", "True", "TRUE", "on", "On", "ON"]

def falseWords : List String :=
  ["no", "No", "NO", "false", "False", "FALSE", "off", "Off", "OFF"]

def nullWords : List String := ["~", "null", "Null", "NULL", ""]

namespace Form

/-- What is left behind a form, if the text starts with it. -/
abbrev Matcher := List Char → Option (List Char)

def sign : Matcher
  | '+' :: cs => some cs
  | '-' :: cs => some cs
  | cs => some cs

def digit (p : Char → Bool) : Matcher
  | c :: cs => if p c then some cs else none
  | [] => none

/-- Any number of characters with a property. -/
def many (p : Char → Bool) : Matcher := fun cs => some (cs.dropWhile p)

def one (c : Char) : Matcher := digit (· == c)

def andThen (f g : Matcher) : Matcher := fun cs => (f cs).bind g

def isDigitOrGap (c : Char) : Bool := isAsciiDigit c || c == '_'

def isBitOrGap (c : Char) : Bool := c == '0' || c == '1' || c == '_'

def isOctalOrGap (c : Char) : Bool := ('0' ≤ c && c ≤ '7') || c == '_'

def isHexOrGap (c : Char) : Bool := (Text.Percent.hexValue? c).isSome || c == '_'

/-- At least one colon with a number below sixty behind it. -/
def sixtieths (fuel : Nat) (cs : List Char) : Option (List Char) :=
  match fuel, cs with
  | n + 1, ':' :: a :: rest =>
    if !isAsciiDigit a then none
    else
      let rest :=
        match rest with
        | b :: more => if a ≤ '5' && isAsciiDigit b then more else rest
        | [] => rest
      some ((sixtieths n rest).getD rest)
  | _, _ => none

/-- An exponent with its sign, if there is one. -/
def exponent (cs : List Char) : Option (List Char) :=
  match cs with
  | e :: s :: d :: rest =>
    if (e == 'e' || e == 'E') && (s == '+' || s == '-') && isAsciiDigit d then
      some (rest.dropWhile isAsciiDigit)
    else some cs
  | _ => some cs

def whole (f : Matcher) (cs : List Char) : Bool := f cs == some []

def digits : Matcher := andThen (digit isAsciiDigit) (many isDigitOrGap)

def isInt (cs : List Char) : Bool :=
  let body := (sign cs).getD cs
  match body with
  | '0' :: 'b' :: rest => whole (andThen (digit isBitOrGap) (many isBitOrGap)) rest
  | '0' :: 'x' :: rest => whole (andThen (digit isHexOrGap) (many isHexOrGap)) rest
  | '0' :: rest => rest.all isOctalOrGap
  | c :: rest =>
    isAsciiDigit c &&
      (rest.all isDigitOrGap ||
        whole (sixtieths rest.length) (rest.dropWhile isDigitOrGap))
  | [] => false

def isFloat (cs : List Char) : Bool :=
  let body := (sign cs).getD cs
  let fraction := andThen (one '.') (many isDigitOrGap)
  whole (andThen digits (andThen fraction exponent)) body ||
    whole (andThen (one '.') (andThen digits exponent)) cs ||
    whole (andThen digits (andThen (sixtieths cs.length) fraction)) body ||
    [".inf", ".Inf", ".INF"].contains (String.ofList body) ||
    [".nan", ".NaN", ".NAN"].contains (String.ofList cs)

/-- One decimal digit or two. -/
def oneOrTwo : Matcher :=
  andThen (digit isAsciiDigit) fun rest => some ((digit isAsciiDigit rest).getD rest)

def twoDigits : Matcher := andThen (digit isAsciiDigit) (digit isAsciiDigit)

/-- Four digits for a year and a hyphen. -/
def year : Matcher := andThen twoDigits (andThen twoDigits (one '-'))

/-- A date with a digit or two for month and day. -/
def date : Matcher := andThen year (andThen oneOrTwo (andThen (one '-') oneOrTwo))

/-- A time of day behind a date, with an optional fraction and zone. -/
def isClock (cs : List Char) : Bool :=
  let blanks := many fun c => c == ' ' || c == '\t'
  let start : Matcher := fun rest =>
    match rest with
    | 'T' :: more => some more
    | 't' :: more => some more
    | ' ' :: more => blanks more
    | '\t' :: more => blanks more
    | _ => none
  let time :=
    andThen start (andThen oneOrTwo (andThen (one ':') (andThen twoDigits
      (andThen (one ':') twoDigits))))
  let fraction : Matcher := fun rest =>
    some ((andThen (one '.') (many isAsciiDigit) rest).getD rest)
  let offset := andThen oneOrTwo fun rest =>
    some ((andThen (one ':') twoDigits rest).getD rest)
  let zone : Matcher := fun rest =>
    match rest with
    | 'Z' :: more => some more
    | '+' :: more => offset more
    | '-' :: more => offset more
    | _ => none
  match andThen time fraction cs with
  | none => false
  | some [] => true
  | some rest => whole (andThen blanks zone) rest

/-- A date with two digits for month and day, or a date with a time of day behind it. -/
def isTimestamp (cs : List Char) : Bool :=
  let short := andThen year (andThen twoDigits (andThen (one '-') twoDigits))
  whole short cs || (date cs).any isClock

/-- A date, with a time of day behind it or without. -/
def isMoment (cs : List Char) : Bool := (date cs).any fun rest => rest.isEmpty || isClock rest

end Form

/-- The text without a line feed at its end, unless it is nothing else. -/
def withoutFinalBreak (cs : List Char) : List Char :=
  if cs.getLast? = some '\n' ∧ cs ≠ ['\n'] then cs.dropLast else cs

/-- The name of the standard tag that the text of a plain scalar gives it. A line feed at its end
does not count. -/
def plainKind (text : String) : String :=
  let cs := withoutFinalBreak text.toList
  let s := String.ofList cs
  if trueWords.contains s || falseWords.contains s then "bool"
  else if Form.isFloat cs then "float"
  else if Form.isInt cs then "int"
  else if s = "<<" then "merge"
  else if nullWords.contains s then "null"
  else if Form.isTimestamp cs then "timestamp"
  else if s = "=" then "value"
  else if s = "!" || s = "&" || s = "*" then "yaml"
  else "str"

/-- The tag that the text of a plain scalar gives it. -/
def plainTag (text : String) : String := standardTag (plainKind text)

end FeatureRun.Yaml
