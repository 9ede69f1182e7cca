/-!
# Story graphs

A story is a list of nodes. A node has lines with tags, then either choices that lead to other
nodes or one node to go on with. The target `END`, an empty target and no target all end the story.
-/
namespace VisualNovel.Story

/-- A line of text and the tags that ride along with it. -/
structure Line where
  text : String
  tags : List String
  deriving DecidableEq, Repr

/-- A choice and the node it leads to. -/
structure Branch where
  text : String
  next : String
  deriving DecidableEq, Repr

/-- A node of the story. -/
structure Node where
  id : String
  lines : List Line := []
  choices : List Branch := []
  next : Option String := none
  deriving DecidableEq, Repr

/-- A story. -/
structure Graph where
  id : String
  start : String
  nodes : List Node
  deriving DecidableEq, Repr

/-- The target that ends the story. -/
def theEnd : String := "END"

/-- The node with an id. -/
def Graph.node? (g : Graph) (id : String) : Option Node :=
  g.nodes.find? (·.id = id)

/-- The first id that was seen before or that an earlier node has. -/
def firstDuplicate? (seen : List String) : List Node → Option String
  | [] => none
  | n :: ns => if seen.contains n.id then some n.id else firstDuplicate? (n.id :: seen) ns

/-- The node a node goes on with, if it names one. -/
def Node.successor? (n : Node) : Option String :=
  n.next.filter fun target => target ≠ "" ∧ target ≠ theEnd

end VisualNovel.Story
