import VisualNovel.Json.Reader
import VisualNovel.Story.Graph
/-!
# The format of stories

A story is written as a JSON object with a non-empty list `nodes`. Ids and targets are strings;
lines, choices, tags and the next node may be left out; nodes, lines and choices have no other
members than those they define. Beyond its shape, a story must not give two nodes one id, and
every target and the start must be there. Of several faults the first in this order is reported:
text that is not JSON, the shape, a repeated id, a missing target, a missing start. Text that cannot
be taken in is no content at all.
-/
namespace VisualNovel.Story

/-- Why content is not a story. -/
inductive FormatError where
  /-- The text is not JSON. -/
  | notJson
  /-- The text is JSON as far as it was read, but cannot be taken in. -/
  | unreadable (e : Misfit)
  /-- The JSON value has not the shape of a story. -/
  | shape
  /-- Two nodes have the id. -/
  | duplicate (id : String)
  /-- A node leads to a node that is not there. -/
  | unknownTarget (node target : String)
  /-- The story starts with a node that is not there. -/
  | unknownStart (start : String)
  deriving DecidableEq, Repr

/-- The words for a fault. -/
def FormatError.message : FormatError → String
  | notJson => "Story is not valid JSON"
  | unreadable _ => "Story cannot be read"
  | shape => "Invalid story"
  | duplicate id => "Duplicate node id: " ++ id
  | unknownTarget node target => "Node '" ++ node ++ "' points to unknown node '" ++ target ++ "'"
  | unknownStart start => "Start node not found: " ++ start

/-- Whether content was read and refused. -/
def FormatError.isRefusal : FormatError → Bool
  | unreadable _ => false
  | _ => true

/-- The members of an object that has no others than the names given. -/
def closedObject? (names : List String) : Json → Option (List (String × Json))
  | .obj members => if members.all (names.contains ·.1) then some members else none
  | _ => none

/-- A string. -/
def text? : Json → Option String
  | .str s => some s
  | _ => none

/-- A string that is not empty. -/
def name? : Json → Option String
  | .str s => if s = "" then none else some s
  | _ => none

/-- A list, each of whose items is read. -/
def list? (read : Json → Option α) : Json → Option (List α)
  | .arr items => items.mapM read
  | _ => none

/-- A member that may be left out. -/
def optional (read : Json → Option α) (default : α) (member : Option Json) : Option α :=
  match member with
  | none => some default
  | some j => read j

/-- Reads a line. -/
def Line.ofJson? (j : Json) : Option Line := do
  let members ← closedObject? ["text", "tags"] j
  let text ← text? (← members.lookup "text")
  let tags ← optional (list? text?) [] (members.lookup "tags")
  some ⟨text, tags⟩

/-- Reads a choice. -/
def Branch.ofJson? (j : Json) : Option Branch := do
  let members ← closedObject? ["text", "next"] j
  let text ← text? (← members.lookup "text")
  let next ← name? (← members.lookup "next")
  some ⟨text, next⟩

/-- Reads the target of a node: a string or null. -/
def target? : Json → Option (Option String)
  | .str s => some (some s)
  | .null => some none
  | _ => none

/-- Reads a node. -/
def Node.ofJson? (j : Json) : Option Node := do
  let members ← closedObject? ["id", "lines", "choices", "next"] j
  let id ← name? (← members.lookup "id")
  let lines ← optional (list? Line.ofJson?) [] (members.lookup "lines")
  let choices ← optional (list? Branch.ofJson?) [] (members.lookup "choices")
  let next ← optional target? none (members.lookup "next")
  some ⟨id, lines, choices, next⟩

/-- Reads a story's nodes, of which there is at least one. -/
def nodes? (j : Json) : Option (Node × List Node) := do
  match ← list? Node.ofJson? j with
  | [] => none
  | first :: rest => some (first, rest)

/-- Reads the shape of a story; without a start it starts with its first node. -/
def Graph.ofShape? : Json → Option Graph
  | .obj members => do
    let (first, rest) ← nodes? (← members.lookup "nodes")
    let id ← optional text? "story" (members.lookup "id")
    let start ← optional name? first.id (members.lookup "start")
    some ⟨id, start, first :: rest⟩
  | _ => none

/-- The targets of a node: of its choices, then the node it goes on with. -/
def Node.targets (n : Node) : List String :=
  n.choices.map (·.next) ++ (n.next.filter (· ≠ "")).toList

/-- Whether a target is the end or a node of the story. -/
def Graph.knows (g : Graph) (target : String) : Bool :=
  target = theEnd || (g.node? target).isSome

/-- The first target that is not there, with its node. -/
def Graph.unknownTarget? (g : Graph) : Option (String × String) :=
  g.nodes.findSome? fun n => (n.targets.find? fun t => !g.knows t).map fun t => (n.id, t)

/-- The first fault of a graph. -/
def Graph.fault? (g : Graph) : Option FormatError :=
  match firstDuplicate? [] g.nodes with
  | some id => some (.duplicate id)
  | none =>
    match g.unknownTarget? with
    | some (node, target) => some (.unknownTarget node target)
    | none => if (g.node? g.start).isNone then some (.unknownStart g.start) else none

/-- Reads a story from a JSON value. -/
def Graph.ofJson (j : Json) : Except FormatError Graph :=
  match Graph.ofShape? j with
  | none => .error .shape
  | some g =>
    match g.fault? with
    | some e => .error e
    | none => .ok g

/-- Reads a story from content: a text that holds JSON, or the JSON value itself. -/
def Graph.ofContent : Json → Except FormatError Graph
  | .str s =>
    match Json.parse s with
    | .error .notJson => .error .notJson
    | .error (.misfit e) => .error (.unreadable e)
    | .ok j => Graph.ofJson j
  | j => Graph.ofJson j

end VisualNovel.Story
