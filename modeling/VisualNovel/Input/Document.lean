import VisualNovel.Input
import VisualNovel.Json.Access
/-!
# Device events as documents

A device event is a list that starts with its name. A button or a position of the pad that is no
integer is one that nothing is bound to.
-/
namespace VisualNovel

/-- A position of the directional pad; one that is no pair of integers is its middle. -/
def DeviceEvent.hatOfJson (j : Json) : DeviceEvent :=
  match j.items.map Json.whole? with
  | [some x, some y] => .hat x y
  | _ => .hat 0 0

/-- Reads a device event; an unknown one is a move of the mouse. -/
def DeviceEvent.ofJson (j : Json) : DeviceEvent :=
  match j.items with
  | [.str "KEYDOWN", k] => .keyDown k
  | [.str "KEYUP", k] => .keyUp k
  | [.str "JOYBUTTONDOWN", b] => .buttonDown (b.whole?.getD (-1))
  | [.str "JOYBUTTONUP", b] => .buttonUp (b.whole?.getD (-1))
  | [.str "JOYHATMOTION", position] => .hatOfJson position
  | [.str "JOYDEVICEADDED", ids] => .gamepadAdded ids.ints
  | [.str "JOYDEVICEREMOVED", ids] => .gamepadRemoved ids.ints
  | [.str "VIDEORESIZE", w, h] => .resize w h
  | .str "QUIT" :: _ => .quit
  | _ => .mouseMotion

/-- The name of a device event. -/
def DeviceEvent.name : DeviceEvent → String
  | .keyDown _ => "KEYDOWN"
  | .keyUp _ => "KEYUP"
  | .buttonDown _ => "JOYBUTTONDOWN"
  | .buttonUp _ => "JOYBUTTONUP"
  | .hat _ _ => "JOYHATMOTION"
  | .gamepadAdded _ => "JOYDEVICEADDED"
  | .gamepadRemoved _ => "JOYDEVICEREMOVED"
  | .resize _ _ => "VIDEORESIZE"
  | .quit => "QUIT"
  | .mouseMotion => "MOUSEMOTION"

/-- Reads an action by its name. -/
def Action.ofJson? (j : Json) : Option Action := j.str?.bind ofName?

end VisualNovel
