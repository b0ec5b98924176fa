import FeatureRun.Calendar
import FeatureRun.Console.Dispatch
import FeatureRun.Store.Saved

/-!
# The program

Reads what lies below the working directory, carries a command out on it, prints what the command
printed, and writes what has changed. The program starts no other program, so a run ends with the
runner not being found, and it is told of no events, so watching ends at once.
-/
set_option autoImplicit false

namespace FeatureRun.Program

/-- Files whose content a command may ask for. -/
def isRead (args : List String) (name : String) : Bool :=
  [".feature", ".json", "config.yaml", "results.db"].any (Text.endsWith name) ||
    args.any fun a => (Path.ofString a).name = name

/-- What lies in a directory; a link is taken for an empty file. -/
partial def load (args : List String) (e : IO.FS.DirEntry) : IO (String × FileTree) := do
  match (← e.path.symlinkMetadata).type with
  | .dir =>
    let entries ← (← e.path.readDir).toList.mapM (load args)
    return (e.fileName, .dir entries)
  | .file =>
    let content ← if isRead args e.fileName then IO.FS.readBinFile e.path else pure .empty
    return (e.fileName, .file content.toList)
  | _ => return (e.fileName, .file [])

/-- The disk as far as a command needs it. -/
def loadDisk (args : List String) (directory : String) : IO FileTree := do
  let entries ← (← (← IO.currentDir).readDir).toList.mapM (load args)
  return (FileTree.dir []).put (Path.ofString directory).parts (.dir entries)

/-- The seconds since the beginning of 1970, by the age of a new file. -/
def now : IO Nat :=
  IO.FS.withTempFile fun _ path => return (← path.metadata).modified.sec.toNat

/-- The store that is kept in a file; anything else counts as an empty one. -/
def storeIn (disk : FileTree) (file : Path) : Store :=
  match disk.readText file file.toString with
  | .ok text => (Store.ofText? text).getD .empty
  | .error _ => .empty

def writeText (t : FileTree) (p : Path) (text : String) : FileTree :=
  if t.isFile? p then (t.write p (Text.Utf8.encode text)).toOption.getD t else t

def contentOf (t : FileTree) (p : Path) : Option Bytes :=
  (t.readBytes p p.toString).toOption

/-- Makes the new directories of a tree, and writes its new and changed files. -/
def saveChanges (root : Path) (before after : FileTree) : IO Unit := do
  for name in ((after.node? root).map FileTree.paths).getD [] do
    let p := root.join (Path.ofString name)
    if after.isDir? p then
      if !before.exists? p then IO.FS.createDirAll p.toString
    else
      match contentOf after p with
      | some bytes =>
        if contentOf before p ≠ some bytes then
          IO.FS.writeBinFile p.toString ⟨bytes.toArray⟩
      | none => pure ()

def run (args : List String) : IO UInt32 := do
  let directory := (← IO.currentDir).toString
  let root := Path.ofString directory
  let disk ← loadDisk args directory
  let seconds ← now
  let machine : Machine :=
    { disk := disk, store := storeIn disk (storeFile root), journal := .new
      directory := directory, stamp := Calendar.stamp seconds, millis := 1000 * seconds
      clock := seconds.toFloat, naps := [], launches := [], surroundings := .usual }
  let (printed, after) :=
    (Console.Command.ofArguments args).perform (.program .notFound) ⟨[], false⟩ machine
  for note in after.journal.shown.reverse do
    match noteLine note.level.name seconds note.message with
    | .ok line => IO.eprintln line
    | .error e => IO.eprintln e.message
  for piece in printed.out do
    IO.println piece
  for piece in printed.err do
    IO.eprintln piece
  saveChanges root disk (writeText after.disk (storeFile root) after.store.toText)
  match printed.ending with
  | .exit code => return code.toUInt32
  | .fault e =>
    IO.eprintln e.message
    return 1

end FeatureRun.Program

def main (args : List String) : IO UInt32 := FeatureRun.Program.run args
