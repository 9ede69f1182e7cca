import VisualNovel.House.Document
import VisualNovel.Input.Document
import VisualNovel.Loop.Game
/-!
# Games as documents

The set-up of a game is an object with a member for each part that is not at its default; a frame is
a list of its time and its device events.
-/
namespace VisualNovel

/-- Reads the set-up of a game. -/
def GameSettings.ofJson (j : Json) : GameSettings :=
  let d : GameSettings := {}
  { title := (j.get? "title").getD d.title
    width := (j.get? "width").getD d.width
    height := (j.get? "height").getD d.height
    fps := (j.get? "target_fps").getD d.fps
    timestep := (j.get? "fixed_timestep").getD d.timestep
    maxUpdates := (j.get? "max_frame_skip").getD d.maxUpdates
    fullscreen := (j.get? "fullscreen").getD d.fullscreen
    resizable := (j.get? "resizable").getD d.resizable }

/-- Reads the settings of a novel that are not at their defaults. -/
def Settings.ofJson (defaults : Settings) (j : Json) : Settings :=
  fun x => (j.get? x.name).getD (defaults x)

/-- Reads frames. -/
def Game.framesOfJson (j : Json) : List (Json × List DeviceEvent) :=
  j.items.map fun f => match f.items with
    | time :: rest => (time, (rest.headD .null).items.map .ofJson)
    | [] => (.int 0, [])

end VisualNovel
