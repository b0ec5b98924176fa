import FeatureRun.Report.Basic
import FeatureRun.Text.LowerCase
import FeatureRun.Text.Percent
import FeatureRun.Text.Lines
import FeatureRun.Text.Search

/-!
# Finding a file's entry in a report

Runners name one file in several ways: by a path from the workspace, by an absolute path, or by a
`file:` address. Two spellings are brought to one form, and agree if the names in the one are the
last names in the other.
-/
set_option autoImplicit false

namespace FeatureRun.Report

def dropOptional (w : String) (cs : List Char) : List Char :=
  (Text.afterPrefix? w.toList cs).getD cs

/-- The path that an address stands for. -/
def stripAddress (cs : List Char) : List Char :=
  match Text.afterPrefix? "file://".toList cs with
  | some rest => Text.Percent.decode rest
  | none =>
    match Text.afterPrefix? "file:".toList cs with
    | some rest => Text.Percent.decode rest
    | none => cs

def forwardSlashes (cs : List Char) : List Char := cs.map fun c => if c = '\\' then '/' else c

/-- The form in which spellings are compared: without address marks, with forward slashes only,
without one leading `./` and one leading slash, and in lower case. -/
def comparable (path : String) : String :=
  let cs := forwardSlashes (stripAddress path.toList)
  Text.lower (String.ofList (dropOptional "/" (dropOptional "./" cs)))

/-- Whether two forms name one file: they are equal, the longer one ends with the shorter one behind
a slash, or they have the same base name and the shorter one is the end of the longer one. -/
def agree (a b : List Char) : Bool :=
  if a.isEmpty || b.isEmpty then false
  else if a = b then true
  else
    let (shorter, longer) := if a.length ≤ b.length then (a, b) else (b, a)
    if ('/' :: shorter).isSuffixOf longer then true
    else
      let short := Text.pieces '/' shorter
      let long := Text.pieces '/' longer
      if short.getLast? ≠ long.getLast? then false
      else if short.length ≤ long.length then
        Text.joined ['/'] (long.drop (long.length - short.length)) = shorter
      else false

/-- Two spellings of a path name one file. -/
def sameFile (target candidate : String) : Bool :=
  agree (comparable target).toList (comparable candidate).toList

/-- The position of the first entry for a file. -/
def indexOf? (report : List Entry) (target : String) : Option Nat :=
  report.findIdx? fun e => sameFile target e.uri

/-- The first entry for a file. -/
def entryFor? (report : List Entry) (target : String) : Option Entry :=
  report.find? fun e => sameFile target e.uri

end FeatureRun.Report
