import FeatureRun.Feature.Basic

/-!
# Lines of a feature file

A line is classified by what it starts with once it is trimmed. Every other line is a step, a
comment or free text and says nothing about the tree.
-/
set_option autoImplicit false

namespace FeatureRun.Feature

inductive Line where
  | feature (name : String)
  | rule (name : String)
  | outline (name : String)
  | scenario (name : String)
  | examples
  | row (text : String)
  | other
  deriving DecidableEq, Repr

namespace Line

/-- What follows a keyword, trimmed. -/
def title? (keyword : String) (cs : List Char) : Option String :=
  (Text.afterPrefix? keyword.toList cs).map fun rest => String.ofList (Text.trim rest)

/-- The class of a trimmed line. No keyword begins another one, so their order does not matter. -/
def ofTrimmed (cs : List Char) : Line :=
  match title? "Feature:" cs with
  | some name => .feature name
  | none =>
    match title? "Rule:" cs with
    | some name => .rule name
    | none =>
      match title? "Scenario Outline:" cs with
      | some name => .outline name
      | none =>
        match title? "Scenario:" cs with
        | some name => .scenario name
        | none =>
          if "Examples:".toList.isPrefixOf cs then .examples
          else if cs.head? = some '|' then .row (String.ofList cs)
          else .other

def ofText (s : String) : Line := ofTrimmed (Text.trim s.toList)

def isExamples : Line → Bool
  | .examples => true
  | _ => false

def isRow : Line → Bool
  | .row _ => true
  | _ => false

def isOutline : Line → Bool
  | .outline _ => true
  | _ => false

/-- A line that opens a rule or a scenario. -/
def isHeader : Line → Bool
  | .rule _ => true
  | .outline _ => true
  | .scenario _ => true
  | _ => false

end Line

/-- The classified lines of a text. -/
def linesOf (text : String) : List Line := (Text.lines text).map Line.ofText

end FeatureRun.Feature
