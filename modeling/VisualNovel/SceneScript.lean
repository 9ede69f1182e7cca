import VisualNovel.Assoc
import VisualNovel.Json.Value
import VisualNovel.SceneStack
/-!
# Scene scripts

Scenes as data: a class of scenes says whether its scenes are transparent and block updates, and
which orders they give when they are told something: to change the stack, to update or draw the
scenes, to hand them an event or another size. An order may be limited to a number of times over all
scenes of its class. A class name stands for a new scene of the class; a class name with a mark
behind `@` for one scene that is made when it is first named.

Orders are carried out at once, also those that a scene gives while another order is carried out.
What is handed to the scenes may be any value.
-/
namespace VisualNovel

/-- What a scene is told. -/
inductive SceneCue where
  | enter
  | exit
  | destroy
  | resize
  | update
  | render
  | handle
  deriving DecidableEq, Repr

/-- An order to a stack of scenes. -/
inductive SceneOrder where
  | ask (change : SceneChange String)
  | update (dt : Json)
  | render (alpha : Json)
  | handle (kind : Json)
  | resize (width height : Json)

/-- An order that a scene gives, and how often it may. -/
structure SceneRequest where
  order : SceneOrder
  limit : Option Nat

/-- A class of scenes. -/
structure SceneClass where
  transparent : Bool := false
  blocksUpdate : Bool := true
  requests : List (SceneCue × List SceneRequest) := []

/-- A scene: its class, and how many of the class were made up to it. -/
structure SceneTag where
  name : String
  number : Nat
  deriving DecidableEq, Repr

/-- What scripted scenes leave behind. -/
inductive SceneMark where
  | entered (scene : SceneTag) (active : Bool)
  | exited (scene : SceneTag) (active : Bool)
  | destroyed (scene : SceneTag)
  | resized (scene : SceneTag) (width height : Json)
  | updated (scene : SceneTag) (dt : Json)
  | rendered (scene : SceneTag) (alpha : Json)
  | handled (scene : SceneTag) (kind : Json)
  | published (topic : Topic) (name : String)

/-- A stack of scripted scenes. -/
structure Playhouse where
  scenes : SceneStack SceneTag := {}
  classes : List (String × SceneClass) := []
  /-- How many scenes of a class were made. -/
  made : List (String × Nat) := []
  /-- The scenes that are known by a mark. -/
  marked : List (String × SceneTag) := []
  /-- How often each request was made. -/
  used : List ((String × SceneCue × Nat) × Nat) := []
  /-- Whether anybody listens to the changes. -/
  listening : Bool := true
  marks : List SceneMark := []

namespace Playhouse

/-- Records a mark. -/
def leave (m : SceneMark) (p : Playhouse) : Playhouse := { p with marks := p.marks ++ [m] }

/-- The class of a scene. -/
def classOf (p : Playhouse) (k : SceneTag) : SceneClass := (p.classes.lookup k.name).getD {}

/-- Whether a scene is active. -/
def isActive (p : Playhouse) (k : SceneTag) : Bool := p.scenes.active.contains k

/-- A new scene of a class. -/
def make (name : String) (p : Playhouse) : Playhouse × SceneTag :=
  let number := (p.made.lookup name).getD 0 + 1
  ({ p with made := Assoc.upsert name number p.made }, ⟨name, number⟩)

/-- The class of the scene that a name stands for. -/
def className (name : String) : String := .ofList (name.toList.takeWhile (· ≠ '@'))

/-- The scene a name stands for. -/
def named (name : String) (p : Playhouse) : Playhouse × SceneTag :=
  if className name = name then p.make name
  else
    match p.marked.lookup name with
    | some k => (p, k)
    | none =>
      let (p, k) := p.make (className name)
      ({ p with marked := Assoc.upsert name k p.marked }, k)

/-- Asks for a change, making the scene it names. -/
def ask (c : SceneChange String) (p : Playhouse) : Playhouse :=
  let (p, c) : Playhouse × SceneChange SceneTag :=
    match c with
    | .push name => let (p, k) := p.named name; (p, .push k)
    | .switch name => let (p, k) := p.named name; (p, .switch k)
    | .pop => (p, .pop)
    | .reload => (p, .reload)
    | .clear => (p, .clear)
  { p with scenes := p.scenes.ask c }

/-- The class that an order names although there is none. -/
def missing? (o : SceneOrder) (p : Playhouse) : Option String :=
  match o with
  | .ask (.push name) | .ask (.switch name) =>
    if (p.classes.lookup (className name)).isNone then some (className name) else none
  | _ => none

/-- A way to carry an order out. -/
abbrev Carrier := SceneOrder → Playhouse → Playhouse

/-- Gives the orders of a class for a cue, from the `index`-th on, as far as they are not used
up. -/
def orderAll (carry : Carrier) (name : String) (cue : SceneCue) :
    (index : Nat) → List SceneRequest → Playhouse → Playhouse
  | _, [], p => p
  | index, r :: rest, p =>
    let key := (name, cue, index)
    let count := (p.used.lookup key).getD 0
    let p :=
      if r.limit.all (count < ·) then
        carry r.order { p with used := Assoc.upsert key (count + 1) p.used }
      else p
    orderAll carry name cue (index + 1) rest p

/-- Tells a scene something: it leaves a mark and gives its orders. -/
def tell (carry : Carrier) (cue : SceneCue) (m : SceneMark) (k : SceneTag) (p : Playhouse) :
    Playhouse :=
  orderAll carry k.name cue 0 (((p.classOf k).requests.lookup cue).getD []) (p.leave m)

/-- The playhouse as the world of its scenes. -/
def theatre (carry : Carrier) : Theatre Playhouse SceneTag Empty where
  scenes p := p.scenes
  withScenes s p := { p with scenes := s }
  enter k p := (p.tell carry .enter (.entered k (p.isActive k)) k, none)
  exit k p := p.tell carry .exit (.exited k (p.isActive k)) k
  destroy k p := p.tell carry .destroy (.destroyed k) k
  recreate k p := p.make k.name
  publish topic k p := if p.listening then p.leave (.published topic k.name) else p
  isTransparent k p := (p.classOf k).transparent
  blocksUpdate k p := (p.classOf k).blocksUpdate

/-- Updates the scenes. -/
def update (carry : Carrier) (dt : Json) (p : Playhouse) : Playhouse :=
  ((theatre carry).update (fun k p => (p.tell carry .update (.updated k dt) k, none)) p).1

/-- Draws the scenes. -/
def render (carry : Carrier) (alpha : Json) (p : Playhouse) : Playhouse :=
  ((theatre carry).render (fun k p => (p.tell carry .render (.rendered k alpha) k, none)) p).1

/-- Hands an event to the scene on top. -/
def handle (carry : Carrier) (kind : Json) (p : Playhouse) : Playhouse :=
  (theatre carry).onTop (fun k => tell carry .handle (.handled k kind) k) p

/-- Tells every scene the new size of the screen. -/
def resize (carry : Carrier) (width height : Json) (p : Playhouse) : Playhouse :=
  (theatre carry).onEach (fun k => tell carry .resize (.resized k width height) k) p

/-- Carries an order out, with orders given in between down to a depth. Nothing comes of one that
names no class. -/
def carryOut : (depth : Nat) → Carrier
  | 0, _, p => p
  | depth + 1, o, p =>
    match o with
    | .ask c => if (p.missing? o).isSome then p else p.ask c
    | .update dt => p.update (carryOut depth) dt
    | .render alpha => p.render (carryOut depth) alpha
    | .handle kind => p.handle (carryOut depth) kind
    | .resize w h => p.resize (carryOut depth) w h

/-- Deeper than the orders of scenes that come to rest are nested. -/
def depthLimit : Nat := 1000

/-- Carries an order out; the class it names must be there. -/
def execute (o : SceneOrder) (p : Playhouse) : Attempt Playhouse String :=
  match p.missing? o with
  | some name => (p, some name)
  | none => (carryOut depthLimit o p, none)

end Playhouse
end VisualNovel
