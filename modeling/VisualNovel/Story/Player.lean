import VisualNovel.Json.Shown
import VisualNovel.Log
import VisualNovel.Stage
import VisualNovel.Story.Graph
/-!
# Playing a story

A player stands at a line of a node or has come to the end. It reads the lines of a node in order;
past the last line it offers the node's choices, or, if there are none, follows `next` to the
nearest node with lines or choices. A chain of nodes that has neither and never ends is given up
after as many steps as there are nodes and one.
-/
namespace VisualNovel.Story

/-- A node and the number of its lines that have been read. -/
structure Place where
  node : Node
  read : Nat
  deriving DecidableEq, Repr

/-- Whether a line is left to read. -/
def Place.hasLine (p : Place) : Bool := p.read < p.node.lines.length

/-- Whether there is something to read or to choose here. -/
def Place.holds (p : Place) : Bool := p.hasLine || !p.node.choices.isEmpty

/-- How a chain of nodes ended: at a place, at the end of the story, or not at all. -/
inductive Arrival where
  | at (place : Place)
  | ended
  | looped
  deriving DecidableEq, Repr

/-- Follows a chain from a place for at most `fuel` steps. -/
def Graph.follow (g : Graph) : (fuel : Nat) → Place → Arrival
  | 0, _ => .looped
  | fuel + 1, p =>
    if p.holds then .at p
    else
      match p.node.successor?.bind g.node? with
      | none => .ended
      | some n => g.follow fuel ⟨n, 0⟩

/-- Follows a chain from a place as far as it can lead somewhere. -/
def Graph.arrive (g : Graph) (p : Place) : Arrival := g.follow (g.nodes.length + 1) p

/-- A story and how far it has been played. -/
structure Player where
  graph : Graph
  /-- Where it stands; nothing once the story has ended. -/
  place : Option Place
  /-- The tags of the line that was read last. -/
  tags : List String := []
  deriving DecidableEq, Repr

/-- Why a player does not move. -/
inductive PlayError where
  /-- There is no line to read. -/
  | noLine
  /-- There is no such choice among `count`. -/
  | noChoice (index : Json) (count : Nat)
  /-- A choice cannot be known by such a value. -/
  | misfit (e : Misfit)
  deriving DecidableEq

/-- The words for a refusal. -/
def PlayError.message : PlayError → String
  | noLine => "Story cannot continue: at a choice point or finished"
  | noChoice index count =>
    "Choice index " ++ index.shown ++ " out of range (0.." ++
      toString ((count : Int) - 1) ++ ")"
  | misfit _ => "Choice index of another kind"

namespace Player

/-- The player after an arrival, with the report of a chain that never ends. -/
def settle (p : Player) : Arrival → Player × List Log.Entry
  | .at place => ({ p with place := some place }, [])
  | .ended => ({ p with place := none }, [])
  | .looped =>
    ({ p with place := none },
      [Log.error ("Story '" ++ p.graph.id ++ "' loops through nodes without lines; ending it")])

/-- Goes to the start of a node. -/
def goTo (p : Player) (target : String) : Player × List Log.Entry :=
  match (if target = theEnd then none else p.graph.node? target) with
  | none => p.settle .ended
  | some n => p.settle (p.graph.arrive ⟨n, 0⟩)

/-- A player at the start of a story. -/
def start (g : Graph) : Player × List Log.Entry := goTo ⟨g, none, []⟩ g.start

/-- Whether there is a line to read. -/
def canContinue (p : Player) : Bool := p.place.any Place.hasLine

/-- Whether the story is over. -/
def hasEnded (p : Player) : Bool := p.place.isNone

/-- The id of the node it stands in. -/
def nodeId? (p : Player) : Option String := p.place.map (·.node.id)

/-- The choices on offer: those of the node, once its lines are read. -/
def branches (p : Player) : List Branch :=
  match p.place with
  | some place => if place.hasLine then [] else place.node.choices
  | none => []

/-- The choices on offer, numbered. -/
def choices (p : Player) : List Choice :=
  p.branches.mapIdx fun i b => ⟨b.text, i⟩

/-- Reads the next line. -/
def continue? (p : Player) : Except PlayError (Line × Player × List Log.Entry) :=
  match p.place.bind fun place => place.node.lines[place.read]?.map (place, ·) with
  | none => .error .noLine
  | some (place, line) =>
    let moved := p.graph.arrive ⟨place.node, place.read + 1⟩
    .ok (line, { p with tags := line.tags }.settle moved)

/-- Takes the choice with a number. -/
def choose? (p : Player) (index : Int) : Except PlayError (Player × List Log.Entry) :=
  if 0 ≤ index then
    match p.branches[index.toNat]? with
    | some b => .ok ({ p with tags := [] }.goTo b.next)
    | none => .error (.noChoice (.int index) p.branches.length)
  else .error (.noChoice (.int index) p.branches.length)

/-- Whether a number lies among the numbers of the choices. -/
def inRange (p : Player) (n : Number) : Bool :=
  Number.le (.int 0) n && Number.lt n (.int p.branches.length)

/-- Takes the choice that any value stands for. A double in range counts no choice, which is found
out only when the tags are dropped already. -/
def chooseBy (p : Player) (index : Json) : Player × Except PlayError (List Log.Entry) :=
  match index.number with
  | .error e => (p, .error (.misfit e))
  | .ok n =>
    if p.inRange n then
      match index.count with
      | .error e => ({ p with tags := [] }, .error (.misfit e))
      | .ok i =>
        match p.choose? i with
        | .error e => (p, .error e)
        | .ok (p, log) => (p, .ok log)
    else (p, .error (.noChoice index p.branches.length))

end Player
end VisualNovel.Story
