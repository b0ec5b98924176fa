import FeatureRun.Path.Basic
import FeatureRun.Text.Encoded
import FeatureRun.Text.Utf8
import FeatureRun.Text.Lines

/-!
# File trees

The part of a file system that a program sees, as a value: a tree of directories and regular files
from the root directory down. Paths are worked out name by name, a double dot leading to the
directory above, and every operation that can fail says at which path and why.
-/
set_option autoImplicit false

namespace FeatureRun

abbrev Bytes := List UInt8

inductive FileTree where
  | file (content : Bytes)
  | dir (entries : List (String × FileTree))
  deriving Inhabited

/-- Why a path cannot be used. -/
inductive FileFault.Kind where
  | missing
  | exists
  | notDirectory
  | isDirectory
  | nameTooLong
  /-- The path holds a NUL character, so no system is ever asked about it. -/
  | nul
  deriving DecidableEq, Repr

/-- A path that cannot be used, as it was given. -/
structure FileFault where
  kind : FileFault.Kind
  path : String
  deriving DecidableEq, Repr

namespace FileFault

/-- The number and the text that systems give to a fault. -/
def Kind.text : Kind → String
  | .missing => "[Errno 2] No such file or directory"
  | .exists => "[Errno 17] File exists"
  | .notDirectory => "[Errno 20] Not a directory"
  | .isDirectory => "[Errno 21] Is a directory"
  | .nameTooLong => "[Errno 36] File name too long"
  | .nul => "embedded null byte"

def message (f : FileFault) : String :=
  if f.kind = .nul then f.kind.text else f.kind.text ++ ": " ++ Text.quoted f.path

end FileFault

namespace FileTree

/-- The entry with a name. -/
def named? (name : String) : List (String × FileTree) → Option FileTree
  | [] => none
  | (n, t) :: es => if n = name then some t else named? name es

/-- Replaces the entry with a name, or adds it. -/
def setEntry (name : String) (t : FileTree) : List (String × FileTree) → List (String × FileTree)
  | [] => [(name, t)]
  | (n, u) :: es => if n = name then (name, t) :: es else (n, u) :: setEntry name t es

def isDir : FileTree → Bool
  | .dir _ => true
  | .file _ => false

/-- What stands at the end of a list of names. -/
def at? (t : FileTree) : List String → Option FileTree
  | [] => some t
  | n :: ns =>
    match t with
    | .file _ => none
    | .dir es => (named? n es).bind fun u => u.at? ns

/-- Puts a tree at the end of a list of names, through directories that are made where there are
none. Nothing is put below a file. -/
def put : FileTree → List String → FileTree → FileTree
  | _, [], new => new
  | .file c, _ :: _, _ => .file c
  | .dir es, n :: ns, new => .dir (setEntry n (put ((named? n es).getD (.dir [])) ns new) es)

/-- Takes away what stands at the end of a list of names. -/
def remove : FileTree → List String → FileTree
  | t, [] => t
  | .file c, _ :: _ => .file c
  | .dir es, [n] => .dir (es.filter (·.1 ≠ n))
  | .dir es, n :: ns =>
    match named? n es with
    | none => .dir es
    | some u => .dir (setEntry n (remove u ns) es)

/-- The most bytes that a name may have. -/
def longestName : Nat := 255

/-- The most bytes that a path may have. -/
def longestPath : Nat := 4095

def isTooLong (name : String) : Bool := longestName < Text.systemSize name

/-- Follows the names of a path from the directory `here`. -/
def follow (t : FileTree) (here : List String) : List String → Except FileFault.Kind (List String)
  | [] => .ok here
  | p :: ps =>
    match t.at? here with
    | some (.dir es) =>
      if p = ".." then follow t here.dropLast ps
      else if isTooLong p then .error .nameTooLong
      else if (named? p es).isSome then follow t (here ++ [p]) ps
      else .error .missing
    | some (.file _) => .error .notDirectory
    | none => .error .missing

/-- A path with a NUL character in it. -/
def hasNul (p : Path) : Bool := p.parts.any fun name => name.toList.contains '\x00'

/-- The names, without dots, of the place that an absolute path leads to. -/
def place (t : FileTree) (p : Path) : Except FileFault.Kind (List String) :=
  if hasNul p then .error .nul else t.follow [] p.parts

/-- What an absolute path leads to. -/
def node? (t : FileTree) (p : Path) : Option FileTree :=
  match t.place p with
  | .ok names => t.at? names
  | .error _ => none

def exists? (t : FileTree) (p : Path) : Bool := (t.node? p).isSome

def isFile? (t : FileTree) (p : Path) : Bool :=
  match t.node? p with
  | some (.file _) => true
  | _ => false

/-- The system is asked about a path and refuses it, since it or one of its names is too long. -/
def isRefused (t : FileTree) (p : Path) : Bool :=
  !hasNul p && (Text.systemFault? p.toString).isNone &&
    (longestPath < Text.systemSize p.toString || t.place p matches .error .nameTooLong)

/-- Whether a path leads to a regular file, if the system says so. -/
def checkFile (t : FileTree) (p : Path) : Except FileFault Bool :=
  if t.isRefused p then .error ⟨.nameTooLong, p.toString⟩ else .ok (t.isFile? p)

def isDir? (t : FileTree) (p : Path) : Bool :=
  match t.node? p with
  | some (.dir _) => true
  | _ => false

/-- The bytes of a file; `shown` is the path as it was given. -/
def readBytes (t : FileTree) (p : Path) (shown : String) : Except FileFault Bytes :=
  match t.place p with
  | .error k => .error ⟨k, shown⟩
  | .ok names =>
    match t.at? names with
    | some (.file bytes) => .ok bytes
    | some (.dir _) => .error ⟨.isDirectory, shown⟩
    | none => .error ⟨.missing, shown⟩

/-- The names, without dots, of the directory in which the last name of a path stands. -/
def above (t : FileTree) (p : Path) : Except FileFault.Kind (List String) :=
  if hasNul p then .error .nul
  else
    match t.follow [] p.parts.dropLast with
    | .error k => .error k
    | .ok names =>
      match t.at? names with
      | some (.dir _) => .ok names
      | some (.file _) => .error .notDirectory
      | none => .error .missing

/-- Makes a new directory in one that exists. -/
def makeDir (t : FileTree) (p : Path) : Except FileFault FileTree :=
  let fault (k : FileFault.Kind) : Except FileFault FileTree := .error ⟨k, p.toString⟩
  match t.above p, p.parts.getLast? with
  | .error k, _ => fault k
  | .ok _, none => fault .exists
  | .ok names, some name =>
    if name = ".." then fault .exists
    else if isTooLong name then fault .nameTooLong
    else if (t.at? (names ++ [name])).isSome then fault .exists
    else .ok (t.put (names ++ [name]) (.dir []))

/-- A fault of making a directory counts only if there is none. -/
def settle (t : FileTree) (p : Path) (f : FileFault) : Except FileFault Unit :=
  if t.isDir? p then .ok () else .error f

/-- Makes a directory, and first those above it if they are missing. `names` are its names
backwards. -/
def makeChain (root : Path.Root) (t : FileTree) (names : List String) :
    Except FileFault Unit × FileTree :=
  match names with
  | [] => (.ok (), t)
  | name :: outer =>
    let p : Path := ⟨root, (name :: outer).reverse⟩
    match t.makeDir p with
    | .ok made => (.ok (), made)
    | .error f =>
      if f.kind ≠ .missing then (t.settle p f, t)
      else
        match makeChain root t outer with
        | (.error e, t) => (.error e, t)
        | (.ok (), t) =>
          match t.makeDir p with
          | .ok made => (.ok (), made)
          | .error f => (t.settle p f, t)

/-- Makes a directory and those above it; a directory that exists is fine. Also gives the tree
afterwards: what was made before a fault stays. -/
def makeDirs (t : FileTree) (p : Path) : Except FileFault Unit × FileTree :=
  makeChain p.root t p.parts.reverse

/-- Writes a file into a directory that exists; the file is made if there is none. -/
def write (t : FileTree) (p : Path) (content : Bytes) : Except FileFault FileTree :=
  let fault (k : FileFault.Kind) : Except FileFault FileTree := .error ⟨k, p.toString⟩
  match t.above p, p.parts.getLast? with
  | .error k, _ => fault k
  | .ok _, none => fault .isDirectory
  | .ok names, some name =>
    if name = ".." then fault .isDirectory
    else if isTooLong name then fault .nameTooLong
    else if (t.at? (names ++ [name])).any isDir then fault .isDirectory
    else .ok (t.put (names ++ [name]) (.file content))

/-- Writes a file, into directories that are made where there are none. Also gives the tree
afterwards. -/
def establish (t : FileTree) (p : Path) (content : Bytes) : Except FileFault Unit × FileTree :=
  match t.makeDirs ⟨p.root, p.parts.dropLast⟩ with
  | (.error f, t) => (.error f, t)
  | (.ok (), t) =>
    match t.write p content with
    | .ok written => (.ok (), written)
    | .error f => (.error f, t)

/-- Takes a file away, if there is one. -/
def unlink (t : FileTree) (p : Path) : FileTree :=
  match t.place p with
  | .error _ => t
  | .ok names => if (t.at? names).any isDir then t else t.remove names

/-- Takes a file or a directory with all that it holds away. -/
def delete (t : FileTree) (p : Path) : FileTree :=
  match t.place p with
  | .error _ => t
  | .ok names => t.remove names

end FileTree

/-- Why the text of a file cannot be had. -/
inductive TextFault where
  | file (f : FileFault)
  | encoding (f : Text.Utf8.Fault)
  deriving DecidableEq, Repr

/-- No system was asked about the path. -/
def TextFault.isNul : TextFault → Bool
  | .file f => f.kind = .nul
  | .encoding _ => false

def TextFault.message : TextFault → String
  | .file f => f.message
  | .encoding f => f.message

/-- The text of a file, with line feeds for all line endings. -/
def FileTree.readText (t : FileTree) (p : Path) (shown : String) : Except TextFault String :=
  match t.readBytes p shown with
  | .error f => .error (.file f)
  | .ok bytes =>
    match Text.Utf8.decode bytes with
    | .error f => .error (.encoding f)
    | .ok s => .ok (String.ofList (Text.unifyBreaks s.toList))

end FeatureRun
