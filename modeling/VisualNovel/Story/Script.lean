import VisualNovel.Json.Value
import VisualNovel.Story.Graph
import VisualNovel.Story.Statement
import VisualNovel.Text.Quoted
/-!
# Scripts

A script is compiled into a story graph. What stands before the first header belongs to a node
`start`. The tags of tag lines wait for the next line of dialogue of their node; those that wait
when the node ends are dropped with a warning. A line of dialogue must not follow a choice of its
node, a node goes on to one node at most, and no two nodes have one name; the last of these is
looked at only when all lines have been read.
-/
namespace VisualNovel.Story

/-- Why a script is not a story. Lines are counted from one. -/
inductive ScriptError where
  /-- The node goes on to a node already. -/
  | continuesTwice (line : Nat) (node next : String)
  /-- A line of dialogue follows a choice. -/
  | lineAfterChoice (line : Nat) (node : String)
  /-- Two nodes have the name. -/
  | duplicate (node : String)
  deriving DecidableEq, Repr

namespace ScriptError

/-- The line at fault; zero if it is no single one. -/
def line : ScriptError → Nat
  | continuesTwice line _ _ => line
  | lineAfterChoice line _ => line
  | duplicate _ => 0

/-- What is wrong. -/
def reason : ScriptError → String
  | continuesTwice _ node next => "node '" ++ node ++ "' already continues to '" ++ next ++ "'"
  | lineAfterChoice _ node => "dialogue after choices in node '" ++ node ++ "'"
  | duplicate node => "duplicate node '" ++ node ++ "'"

/-- The words for a fault. -/
def message (e : ScriptError) : String := "line " ++ toString e.line ++ ": " ++ e.reason

end ScriptError

/-- Tags that no line of their node followed. -/
structure Dangling where
  tags : List String
  node : String
  deriving DecidableEq, Repr

/-- The words for tags that were dropped. -/
def Dangling.message (d : Dangling) : String :=
  "Tags " ++ Text.quotedList d.tags ++ " at the end of node '" ++ d.node ++
    "' have no line to attach to"

/-- A script as far as it has been read. -/
structure Draft where
  /-- The nodes that have ended. -/
  closed : List Node := []
  /-- The node that is being read. -/
  current : Option Node := none
  /-- The tags that wait for a line. -/
  waiting : List String := []
  /-- The tags that were dropped. -/
  dropped : List Dangling := []
  deriving DecidableEq, Repr

namespace Draft

/-- The nodes read so far. -/
def nodes (d : Draft) : List Node := d.closed ++ d.current.toList

/-- The tags dropped when the node being read ends. -/
def dangling (d : Draft) : List Dangling :=
  match d.current with
  | some n => if d.waiting.isEmpty then [] else [⟨d.waiting, n.id⟩]
  | none => []

/-- Ends the node being read. -/
def close (d : Draft) : Draft := ⟨d.nodes, none, [], d.dropped ++ d.dangling⟩

/-- The node being read; what stands before the first header belongs to `start`. -/
def node (d : Draft) : Node := d.current.getD { id := "start" }

/-- Takes in the statement of a line. -/
def add (d : Draft) (line : Nat) : Statement → Except ScriptError Draft
  | .nothing => .ok d
  | .node id => .ok { d.close with current := some { id } }
  | .tags tags => .ok { d with current := some d.node, waiting := d.waiting ++ tags }
  | .choice text target =>
    .ok { d with current := some { d.node with choices := d.node.choices ++ [⟨text, target⟩] } }
  | .divert target =>
    match d.node.next with
    | some next => .error (.continuesTwice line d.node.id next)
    | none => .ok { d with current := some { d.node with next := some target } }
  | .dialogue text tags =>
    if d.node.choices.isEmpty then
      .ok { d with
        current := some { d.node with lines := d.node.lines ++ [⟨text, d.waiting ++ tags⟩] }
        waiting := [] }
    else .error (.lineAfterChoice line d.node.id)

/-- Takes in the statements from a line on, up to the first fault. -/
def addAll (d : Draft) (line : Nat) : List Statement → Draft × Option ScriptError
  | [] => (d, none)
  | s :: rest =>
    match d.add line s with
    | .error e => (d, some e)
    | .ok d => addAll d (line + 1) rest

end Draft

/-- What comes of a script: a story or a fault, and the tags that were dropped. -/
structure Compilation where
  result : Except ScriptError Graph
  dropped : List Dangling

/-- The graph of a script's nodes; it starts with the first. -/
def Graph.ofNodes (id : String) (nodes : List Node) : Graph :=
  ⟨id, (nodes.head?.map (·.id)).getD "start", nodes⟩

/-- Compiles a script into a story with the id `compiled`. -/
def compile (text : String) : Compilation :=
  match Draft.addAll {} 1 (statements text) with
  | (d, some e) => ⟨.error e, d.dropped⟩
  | (d, none) =>
    let d := d.close
    match firstDuplicate? [] d.nodes with
    | some id => ⟨.error (.duplicate id), d.dropped⟩
    | none => ⟨.ok (.ofNodes "compiled" d.nodes), d.dropped⟩

/-! ## Writing a graph as JSON -/

/-- A line as JSON. -/
def Line.toJson (l : Line) : Json := .obj [("text", .str l.text), ("tags", .arr (l.tags.map .str))]

/-- A choice as JSON. -/
def Branch.toJson (b : Branch) : Json := .obj [("text", .str b.text), ("next", .str b.next)]

/-- A node as JSON. -/
def Node.toJson (n : Node) : Json :=
  .obj [("id", .str n.id), ("lines", .arr (n.lines.map Line.toJson)),
    ("choices", .arr (n.choices.map Branch.toJson)), ("next", n.next.elim .null .str)]

/-- A story as JSON. -/
def Graph.toJson (g : Graph) : Json :=
  .obj [("id", .str g.id), ("start", .str g.start), ("nodes", .arr (g.nodes.map Node.toJson))]

end VisualNovel.Story
