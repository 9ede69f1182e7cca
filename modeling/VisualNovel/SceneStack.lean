import VisualNovel.Attempt
import VisualNovel.Topic
/-!
# The scene stack

The screens of a game lie on a stack. Changes are asked for at any time, also by the scenes
themselves, and are made at the start of the next update, in the order in which they were asked
for. A scene is told when it comes to the top and when it is covered or removed, and once more when
it is removed for good. An update reaches the scenes down to the first that blocks it, a drawing
those down to the first that hides what is below, both from the bottom up.

A scene may refuse to be entered; then the changes that were left wait for the next update. It may
also refuse to be updated or drawn; then nothing is done for those above it.

What a scene does when it is told something may itself be an update of the scenes, which makes the
changes that are left. So whatever is done step by step looks at the stack anew before each step.
-/
namespace VisualNovel

/-- A change of the stack. -/
inductive SceneChange (κ : Type) where
  | push (scene : κ)
  | pop
  /-- Replace the top scene. -/
  | switch (scene : κ)
  /-- Replace the top scene by a fresh copy. -/
  | reload
  | clear
  deriving DecidableEq, Repr

/-- The scenes of a game. -/
structure SceneStack (κ : Type) where
  /-- The top scene comes first. -/
  stack : List κ := []
  pending : List (SceneChange κ) := []
  /-- The scenes that were told to be on top, and not yet that they are no more. -/
  active : List κ := []
  deriving DecidableEq, Repr

namespace SceneStack
variable {κ : Type}

/-- The scene on top. -/
def current? (s : SceneStack κ) : Option κ := s.stack.head?

/-- The scenes from the bottom up. -/
def bottomUp (s : SceneStack κ) : List κ := s.stack.reverse

/-- Asks for a change. -/
def ask (c : SceneChange κ) (s : SceneStack κ) : SceneStack κ :=
  { s with pending := s.pending ++ [c] }

/-- The scenes from the top down to the first that stops, that one included. -/
def downTo (stops : κ → Bool) : List κ → List κ
  | [] => []
  | s :: below => if stops s then [s] else s :: downTo stops below

end SceneStack

/-- A world with scenes. `φ` is why a scene may refuse. -/
structure Theatre (σ κ φ : Type) where
  scenes : σ → SceneStack κ
  withScenes : SceneStack κ → σ → σ
  /-- The scene has come to the top. -/
  enter : κ → σ → Attempt σ φ
  /-- The scene is covered or removed. -/
  exit : κ → σ → σ
  /-- The scene is removed for good. -/
  destroy : κ → σ → σ
  /-- A fresh copy of a scene. -/
  recreate : κ → σ → σ × κ
  /-- Tells the world of a change to a scene. -/
  publish : Topic → κ → σ → σ
  isTransparent : κ → σ → Bool
  blocksUpdate : κ → σ → Bool

namespace Theatre
variable {σ κ φ : Type} [DecidableEq κ]

/-- Changes the scenes of a world. -/
def modify (t : Theatre σ κ φ) (f : SceneStack κ → SceneStack κ) (s : σ) : σ :=
  t.withScenes (f (t.scenes s)) s

/-- Asks for a change. -/
def ask (t : Theatre σ κ φ) (c : SceneChange κ) (s : σ) : σ := t.modify (·.ask c) s

/-- Brings a scene to the top. -/
def activate (t : Theatre σ κ φ) (k : κ) (s : σ) : Attempt σ φ :=
  t.enter k (t.modify (fun c => { c with active := k :: c.active.filter (· ≠ k) }) s)

/-- Takes a scene from the top. -/
def deactivate (t : Theatre σ κ φ) (k : κ) (s : σ) : σ :=
  t.exit k (t.modify (fun c => { c with active := c.active.filter (· ≠ k) }) s)

/-- Removes the top scene for good; `below` is what lies under it. -/
def dismiss (t : Theatre σ κ φ) (k : κ) (below : List κ) (s : σ) : σ :=
  t.destroy k (t.deactivate k (t.modify (fun c => { c with stack := below }) s))

/-- Puts a scene on the stack and tells the world. -/
def place (t : Theatre σ κ φ) (topic : Topic) (k : κ) (s : σ) : Attempt σ φ :=
  match t.activate k (t.modify (fun c => { c with stack := k :: c.stack }) s) with
  | (s, none) => (t.publish topic k s, none)
  | (s, some e) => (s, some e)

/-- More than scenes that come to rest ask for while they are told something. -/
def changeLimit : Nat := 1000000

/-- Removes scenes for good, from the top down, until none is left or `fuel` are removed. -/
def dismissUpTo (t : Theatre σ κ φ) : (fuel : Nat) → σ → σ
  | 0, s => s
  | fuel + 1, s =>
    match (t.scenes s).stack with
    | [] => s
    | k :: below => dismissUpTo t fuel (t.dismiss k below s)

/-- The scene on top comes to the top again. -/
def uncover (t : Theatre σ κ φ) (s : σ) : Attempt σ φ :=
  match (t.scenes s).stack with
  | [] => (s, none)
  | k :: _ => t.activate k s

/-- Makes a change. -/
def apply (t : Theatre σ κ φ) (c : SceneChange κ) (s : σ) : Attempt σ φ :=
  match c, (t.scenes s).stack with
  | .push k, [] => t.place .scenePushed k s
  | .push k, top :: _ => t.place .scenePushed k (t.deactivate top s)
  | .pop, [] => (s, none)
  | .pop, top :: below => t.uncover (t.publish .scenePopped top (t.dismiss top below s))
  | .switch k, [] => t.place .sceneSwitched k s
  | .switch k, top :: below => t.place .sceneSwitched k (t.dismiss top below s)
  | .reload, [] => (s, none)
  | .reload, top :: below =>
    let (s, k) := t.recreate top (t.dismiss top below s)
    t.place .sceneReloaded k s
  | .clear, stack => (t.dismissUpTo (stack.length + changeLimit) s, none)

/-- Makes the changes that were asked for, and those asked for meanwhile, up to `fuel` of them. -/
def settleUpTo (t : Theatre σ κ φ) : (fuel : Nat) → σ → Attempt σ φ
  | 0, s => (s, none)
  | fuel + 1, s =>
    match (t.scenes s).pending with
    | [] => (s, none)
    | c :: rest =>
      (t.apply c (t.modify (fun c => { c with pending := rest }) s)).andThen (settleUpTo t fuel)

/-- Makes the changes that were asked for. -/
def settle (t : Theatre σ κ φ) (s : σ) : Attempt σ φ :=
  t.settleUpTo ((t.scenes s).pending.length + changeLimit) s

/-- Makes the changes that were asked for, then runs `step` for each scene an update reaches. -/
def update (t : Theatre σ κ φ) (step : κ → σ → Attempt σ φ) (s : σ) : Attempt σ φ :=
  (t.settle s).andThen fun s =>
    Attempt.inTurn step (SceneStack.downTo (t.blocksUpdate · s) (t.scenes s).stack).reverse s

/-- Runs `draw` for each scene that is seen. -/
def render (t : Theatre σ κ φ) (draw : κ → σ → Attempt σ φ) (s : σ) : Attempt σ φ :=
  Attempt.inTurn draw
    (SceneStack.downTo (fun k => !t.isTransparent k s) (t.scenes s).stack).reverse s

/-- Runs `handle` for the scene on top. -/
def onTop (t : Theatre σ κ φ) (handle : κ → σ → σ) (s : σ) : σ :=
  (t.scenes s).current?.elim s (handle · s)

/-- Runs `handle` for the scenes from a height on, from the bottom up, for `fuel` at most. -/
def onEachFrom (t : Theatre σ κ φ) (handle : κ → σ → σ) : (fuel height : Nat) → σ → σ
  | 0, _, s => s
  | fuel + 1, height, s =>
    match (t.scenes s).bottomUp[height]? with
    | none => s
    | some k => onEachFrom t handle fuel (height + 1) (handle k s)

/-- Runs `handle` for every scene, from the bottom up. -/
def onEach (t : Theatre σ κ φ) (handle : κ → σ → σ) (s : σ) : σ :=
  t.onEachFrom handle ((t.scenes s).stack.length + changeLimit) 0 s

end Theatre
end VisualNovel
