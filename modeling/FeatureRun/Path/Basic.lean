import FeatureRun.Text.Lines
import FeatureRun.Text.Search

/-!
# Paths

A path is a root and the names behind it. Empty names and single dots are dropped when a path is
read, double dots stay. `normalize` gives the one spelling of an absolute path without any of them,
which is how a feature file is identified.
-/
set_option autoImplicit false

namespace FeatureRun

/-- Where a path starts. Exactly two slashes at the beginning are a root of their own. -/
inductive Path.Root where
  | none
  | slash
  | doubleSlash
  deriving DecidableEq, Repr

structure Path where
  root : Path.Root
  parts : List String
  deriving DecidableEq, Repr

namespace Path

def Root.text : Root → String
  | .none => ""
  | .slash => "/"
  | .doubleSlash => "//"

/-- The root that a text starts with. -/
def Root.ofChars : List Char → Root
  | '/' :: '/' :: '/' :: _ => .slash
  | '/' :: '/' :: _ => .doubleSlash
  | '/' :: _ => .slash
  | _ => .none

def isName (s : String) : Bool := s ≠ "" && s ≠ "."

def ofString (s : String) : Path := ⟨.ofChars s.toList, (Text.split '/' s).filter isName⟩

def toString (p : Path) : String :=
  let body := p.root.text ++ Text.join "/" p.parts
  if body = "" then "." else body

def isAbsolute (p : Path) : Bool := p.root ≠ .none

/-- The path `q` as seen from `p`: `q` itself if it is absolute. -/
def join (p q : Path) : Path := if q.isAbsolute then q else ⟨p.root, p.parts ++ q.parts⟩

def child (p : Path) (name : String) : Path := ⟨p.root, p.parts ++ [name]⟩

/-- The last name. -/
def name (p : Path) : String := p.parts.getLast?.getD ""

def stripParts : (base parts : List String) → Option (List String)
  | [], ps => some ps
  | _ :: _, [] => none
  | b :: bs, p :: ps => if b = p then stripParts bs ps else none

/-- The names that lead from `base` to a path below it. -/
def below? (base p : Path) : Option (List String) :=
  if p.root = base.root then stripParts base.parts p.parts else none

/-- One name after another, a double dot taking the last one away; `names` is backwards. -/
def collapse (names : List String) : List String → List String
  | [] => names.reverse
  | p :: ps =>
    if p = "" || p = "." then collapse names ps
    else if p = ".." then collapse names.tail ps
    else collapse (p :: names) ps

/-- An absolute path without empty names and dots. -/
def normalizeAbsolute (s : String) : String :=
  (Root.ofChars s.toList).text ++ Text.join "/" (collapse [] (Text.split '/' s))

/-- A path as it is looked at from the directory `cwd`. -/
def seenFrom (cwd s : String) : String :=
  if Text.startsWith s "/" then s
  else if Text.endsWith cwd "/" then cwd ++ s
  else cwd ++ "/" ++ s

/-- The absolute path, without empty names and dots, of a path that is looked at from the directory
`cwd`. -/
def normalize (cwd s : String) : String := normalizeAbsolute (seenFrom cwd s)

theorem normalize_of_absolute {s : String} (cwd : String) (h : Text.startsWith s "/" = true) :
    normalize cwd s = normalizeAbsolute s := by
  rw [normalize, seenFrom, if_pos h]

example : normalize "/" "a.feature" = "/a.feature" := by decide

/-- A path with all dots worked out, starting with a single slash. -/
def resolve (cwd s : String) : Path := ⟨.slash, collapse [] (Text.split '/' (seenFrom cwd s))⟩

end Path
end FeatureRun
