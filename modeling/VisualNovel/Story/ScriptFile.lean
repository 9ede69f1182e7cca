import VisualNovel.Files.Disk
import VisualNovel.Json.Writer
import VisualNovel.Log
import VisualNovel.Story.Script
/-!
# Script files

A file of a story is read as JSON content: a file with the suffix `.json`, in any case, as it is,
any other as a script that is compiled first. The story's id is the name of the file without its
suffix. A script can also be compiled into a JSON file beside it. Of the texts of a compiled story
only the id may hold halves: names of files may, but not what is read from files.
-/
namespace VisualNovel.Story
open Files

/-- Why a script file gives no story. -/
inductive SourceError where
  | file (e : FileError)
  | script (e : ScriptError)
  /-- The path names no file that a suffix could be put on. -/
  | noName
  deriving DecidableEq, Repr

/-- The reports on the tags a compilation dropped. -/
def Compilation.log (c : Compilation) : List Log.Entry :=
  c.dropped.map fun d => Log.warning d.message

/-- Compiles the script in a file. -/
def compileFile (disk : Disk) (path : Files.Path) : Except SourceError Graph × List Log.Entry :=
  match disk.readText path with
  | .error e => (.error (.file e), [])
  | .ok text =>
    let c := compile text
    match c.result with
    | .error e => (.error (.script e), c.log)
    | .ok g => (.ok { g with id := path.stem }, c.log)

/-- Whether a file holds a story as JSON. -/
def isJsonFile (path : Files.Path) : Bool := path.suffix.toLower = ".json"

/-- A compiled story as JSON text. -/
def Graph.written (l : Json.Layout) (g : Graph) : String :=
  let id := ("id", .str g.id)
  let rest := [("start", .str g.start), ("nodes", .arr (g.nodes.map Node.toJson))]
  let members := Json.writeMembers Text.codeOf l 1 [id] ++ Json.writeMembers Char.toNat l 1 rest
  .ofList (l.bracket 0 '\x7b' '\x7d' members)

/-- The story content of a file as JSON text. -/
def loadContent (disk : Disk) (path : Files.Path) : Except SourceError String × List Log.Entry :=
  if isJsonFile path then
    match disk.readText path with
    | .error e => (.error (.file e), [])
    | .ok text => (.ok text, [])
  else
    match compileFile disk path with
    | (.error e, log) => (.error e, log)
    | (.ok g, log) => (.ok (g.written .line), log)

/-- Compiles the script in a file into a JSON file; the result is the path and the text written. -/
def compileTo (disk : Disk) (path : Files.Path) (output : Option Files.Path) :
    Except SourceError (Files.Path × String) × List Log.Entry :=
  match output.or (path.withSuffix? ".json") with
  | none => (.error .noName, [])
  | some target =>
    match compileFile disk path with
    | (.error e, log) => (.error e, log)
    | (.ok g, log) =>
      match disk.checkWrite target with
      | .error e => (.error (.file e), log)
      | .ok _ =>
        let done := Log.info ("Compiled " ++ path.toString ++ " -> " ++ target.toString)
        (.ok (target, g.written .indented), log ++ [done])

/-- The disk once the script in a file has been compiled into a JSON file, or could not be. -/
def diskAfter (disk : Disk) (path : Files.Path) (output : Option Files.Path) : Disk :=
  match (compileTo disk path output).1 with
  | .ok (target, text) => disk.write target text.toUTF8
  | .error _ => disk

end VisualNovel.Story
