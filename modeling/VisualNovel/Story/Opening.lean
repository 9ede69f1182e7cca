import VisualNovel.Story.Format
import VisualNovel.Story.Player
import VisualNovel.Story.ScriptFile
/-!
# Opening a story

A player at the start of a story that is given as content, as a script, or as a file of content.
-/
namespace VisualNovel.Story
open Files

/-- Why a story cannot be opened. -/
inductive OpenError where
  | format (e : FormatError)
  | source (e : SourceError)
  deriving DecidableEq, Repr

namespace Player

/-- Opens content. -/
def ofContent (content : Json) : Except FormatError (Player × List Log.Entry) :=
  (Graph.ofContent content).map start

/-- Opens a script, with the reports of its compilation. -/
def ofScript (text : String) : Except OpenError Player × List Log.Entry :=
  let c := compile text
  match c.result with
  | .error e => (.error (.source (.script e)), c.log)
  | .ok g =>
    match Graph.ofJson g.toJson with
    | .error e => (.error (.format e), c.log)
    | .ok g =>
      let (p, log) := start g
      (.ok p, c.log ++ log)

/-- Opens a file of content. -/
def ofFile (disk : Disk) (path : Files.Path) : Except OpenError Player × List Log.Entry :=
  match disk.readText path with
  | .error e => (.error (.source (.file e)), [])
  | .ok text =>
    match ofContent (.str text) with
    | .error e => (.error (.format e), [])
    | .ok (p, log) =>
      let origin := path.toString ++ " (" ++ toString p.graph.nodes.length ++ " nodes)"
      (.ok p, log ++ [Log.info ("Loaded story '" ++ p.graph.id ++ "' from " ++ origin)])

end Player
end VisualNovel.Story
