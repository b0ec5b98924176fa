import FeatureRun.Json.Basic
import FeatureRun.Text.Quoted

/-!
# Writing JSON

Two forms of one value: `line` puts everything on one line, `pretty` gives every item and every
field a line of its own, two spaces further in than its container. Characters outside ASCII are
written as they are.
-/
set_option autoImplicit false

namespace FeatureRun.Json

/-- A character within the quotes of a string. -/
def escapeChar (c : Char) : List Char :=
  if c = '"' then ['\\', '"']
  else if c = '\\' then ['\\', '\\']
  else if c = '\n' then ['\\', 'n']
  else if c = '\r' then ['\\', 'r']
  else if c = '\t' then ['\\', 't']
  else if c = '\x0c' then ['\\', 'f']
  else if c = '\x08' then ['\\', 'b']
  else if c.toNat < 0x20 then '\\' :: 'u' :: Text.hexDigits 4 c.toNat
  else [c]

def stringText (s : String) : List Char := '"' :: s.toList.flatMap escapeChar ++ ['"']

def Real.text : Real → List Char
  | .finite x =>
    ((if x.negative then "-" else "") ++ toString x.mantissa ++ "e" ++ toString x.exponent).toList
  | .infinite negative => (if negative then "-Infinity" else "Infinity").toList
  | .nan => "NaN".toList

/-- How a container is laid out: what stands before its first item, between two items, and after
the last one, given how deep the container lies. -/
structure Layout where
  opening : Nat → List Char
  between : Nat → List Char
  closing : Nat → List Char

def Layout.oneLine : Layout := ⟨fun _ => [], fun _ => [',', ' '], fun _ => []⟩

def newLine (depth : Nat) : List Char := '\n' :: List.replicate (2 * depth) ' '

def Layout.indented : Layout :=
  ⟨fun d => newLine (d + 1), fun d => ',' :: newLine (d + 1), newLine⟩

mutual

def render (l : Layout) (depth : Nat) : Json → List Char
  | .null => "null".toList
  | .bool b => (if b then "true" else "false").toList
  | .int n => (toString n).toList
  | .real x => x.text
  | .str s => stringText s
  | .arr [] => ['[', ']']
  | .arr (v :: vs) =>
    '[' :: l.opening depth ++ render l (depth + 1) v ++ renderItems l depth vs ++
      l.closing depth ++ [']']
  | .obj [] => ['{', '}']
  | .obj ((name, v) :: fs) =>
    '{' :: l.opening depth ++ stringText name ++ [':', ' '] ++ render l (depth + 1) v ++
      renderFields l depth fs ++ l.closing depth ++ ['}']

/-- The items after the first one. -/
def renderItems (l : Layout) (depth : Nat) : List Json → List Char
  | [] => []
  | v :: vs => l.between depth ++ render l (depth + 1) v ++ renderItems l depth vs

/-- The fields after the first one. -/
def renderFields (l : Layout) (depth : Nat) : List (String × Json) → List Char
  | [] => []
  | (name, v) :: fs =>
    l.between depth ++ stringText name ++ [':', ' '] ++ render l (depth + 1) v ++
      renderFields l depth fs

end

/-- A value on one line. -/
def line (v : Json) : String := String.ofList (render .oneLine 0 v)

/-- A value with a line for every item and field. -/
def pretty (v : Json) : String := String.ofList (render .indented 0 v)

end FeatureRun.Json
