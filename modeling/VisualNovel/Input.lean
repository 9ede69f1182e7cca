import VisualNovel.Json.Access
import VisualNovel.Notice
/-!
# Input

Keys, gamepad buttons and the directional pad are bound to actions. An action is pressed by any
input bound to it. A key that goes up ends its actions, except those another held key is bound to;
a button that goes up ends its actions; a move of the pad ends all actions of the pad and begins
the one of its new position. A key may be any value that things can be looked up by. Once a frame
the actions that changed since the last one are published, first those that began, then those that
ended, each in the order of the actions.
-/
namespace VisualNovel

/-- What a device reports. -/
inductive DeviceEvent where
  | keyDown (key : Json)
  | keyUp (key : Json)
  | buttonDown (button : Int)
  | buttonUp (button : Int)
  | hat (x y : Int)
  /-- A gamepad came; these are connected now. -/
  | gamepadAdded (connected : List Int)
  /-- A gamepad went; these are connected now. -/
  | gamepadRemoved (connected : List Int)
  /-- The window has another size, which is only handed on. -/
  | resize (width height : Json)
  | quit
  | mouseMotion
  deriving DecidableEq

/-- Why an event cannot be taken in. -/
def DeviceEvent.misfit? : DeviceEvent → Option Misfit
  | keyDown key | keyUp key => if key.isKey then none else some .kind
  | _ => none

/-- The bindings and what is held. -/
structure Input where
  /-- The keys of each action. -/
  keys : List (Action × List Json)
  /-- The keys that are down. -/
  held : List Json := []
  /-- The actions that are pressed. -/
  pressed : List Action := []
  /-- The actions that were pressed at the last update. -/
  previous : List Action := []
  /-- The actions that began by the last update. -/
  began : List Action := []
  /-- The actions that ended by the last update. -/
  ended : List Action := []
  gamepads : List Int := []
  deriving DecidableEq

namespace Input

/-- The keys bound at the start: arrows and letters for the menu, return, space and z to confirm,
escape to quit. -/
def defaultKeys : List (Action × List Json) :=
  [(.menuUp, [.int 1073741906, .int 119]), (.menuDown, [.int 1073741905, .int 115]),
    (.confirm, [.int 13, .int 32, .int 122]), (.quit, [.int 27])]

/-- The actions of a gamepad button. -/
def buttonActions (button : Int) : List Action :=
  if button = 0 then [.confirm] else if button = 7 then [.quit] else []

/-- The action of a position of the directional pad. -/
def hatAction? (x y : Int) : Option Action :=
  if x = 0 ∧ y = 1 then some .menuUp else if x = 0 ∧ y = -1 then some .menuDown else none

/-- Whether an action is one of the directional pad's. -/
def isHatAction (a : Action) : Bool := a = .menuUp || a = .menuDown

/-- Nothing is held. -/
def start (gamepads : List Int) : Input := { keys := defaultKeys, gamepads }

/-- The keys bound to an action. -/
def bindings (i : Input) (a : Action) : List Json := (i.keys.lookup a).getD []

/-- The actions a key is bound to. -/
def keyActions (i : Input) (key : Json) : List Action :=
  (i.keys.filter (·.2.any (sameKey key))).map (·.1)

/-- Binds a key to an action; a key that is bound keeps its place. -/
def bind (a : Action) (key : Json) (i : Input) : Input :=
  if (i.bindings a).any (sameKey key) then i
  else { i with keys := Assoc.upsert a (i.bindings a ++ [key]) i.keys }

/-- Unbinds a key from an action. -/
def unbind (a : Action) (key : Json) (i : Input) : Input :=
  { i with keys := Assoc.upsert a ((i.bindings a).filter (!sameKey key ·)) i.keys }

/-- Presses actions. -/
def press (actions : List Action) (i : Input) : Input :=
  { i with pressed := actions.foldl (fun p a => if a ∈ p then p else p ++ [a]) i.pressed }

/-- Releases the actions that satisfy a test. -/
def release (test : Action → Bool) (i : Input) : Input :=
  { i with pressed := i.pressed.filter (!test ·) }

/-- Whether another key that is down is bound to an action. -/
def heldBesides (i : Input) (key : Json) (a : Action) : Bool :=
  (i.bindings a).any fun other => !sameKey other key && i.held.any (sameKey other)

/-- Takes in what a device reports. -/
def process (e : DeviceEvent) (i : Input) : Input :=
  match e with
  | .keyDown key =>
    let held := if i.held.any (sameKey key) then i.held else i.held ++ [key]
    { i with held }.press (i.keyActions key)
  | .keyUp key =>
    let i := { i with held := i.held.filter (!sameKey key ·) }
    i.release fun a => (i.keyActions key).contains a && !i.heldBesides key a
  | .buttonDown b => i.press (buttonActions b)
  | .buttonUp b => i.release (buttonActions b).contains
  | .hat x y => (i.release isHatAction).press (hatAction? x y).toList
  | .gamepadAdded ids | .gamepadRemoved ids => { i with gamepads := ids }
  | .resize _ _ | .quit | .mouseMotion => i

/-- What is published at once when a device reports. -/
def noticesOf : DeviceEvent → List Notice
  | .gamepadAdded _ => [.plain .gamepadConnected]
  | _ => []

/-- Ends a frame: what has changed since the last one. -/
def update (i : Input) : Input :=
  { i with
    began := Action.all.filter fun a => i.pressed.contains a && !i.previous.contains a
    ended := Action.all.filter fun a => i.previous.contains a && !i.pressed.contains a
    previous := i.pressed }

/-- What an update publishes. -/
def changes (i : Input) : List Notice :=
  i.began.map Notice.actionPressed ++ i.ended.map Notice.actionReleased

/-- The step through a menu that this frame asks for: up, down or none. -/
def menuStep (i : Input) : Int :=
  if i.began.contains .menuUp then -1 else if i.began.contains .menuDown then 1 else 0

end Input
end VisualNovel
