import VisualNovel.Dialogue.Session
import VisualNovel.Gallery
import VisualNovel.Input
import VisualNovel.Journal.Basic
import VisualNovel.Settings
import VisualNovel.Sound.Jukebox
import VisualNovel.Story.Player
import VisualNovel.View.Basic
/-!
# States in the journal

The states of the parts of a game as JSON objects.
-/
namespace VisualNovel

/-- A player: where it stands, and what it offers. -/
def Story.Player.toJson (p : Story.Player) : Json :=
  .obj [("node", .ofOption .str p.nodeId?), ("can_continue", .bool p.canContinue),
    ("ended", .bool p.hasEnded), ("tags", .ofTexts p.tags),
    ("choices", .ofList Choice.toJson p.choices)]

/-- The name of a phase. -/
def Phase.name : Phase → String
  | .idle => "IDLE"
  | .revealing => "REVEALING"
  | .awaitingChoice => "AWAITING_CHOICE"
  | .awaitingAdvance => "AWAITING_ADVANCE"
  | .ended => "ENDED"

/-- The parts of a session. -/
def Session.fields (s : Session) : List (String × Json) :=
  [("state", .str s.phase.name), ("active", .bool s.active), ("line", .str s.line),
    ("revealed", .ofNat s.revealed), ("complete", .bool s.isLineComplete),
    ("revealing", .bool s.revealing), ("skip", .bool s.skip),
    ("pending", .ofList Choice.toJson s.pending)]

/-- A button: what stands on it, and what its choice is known by. -/
def Button.toJson (b : Button) : Json := .arr [b.label, b.index]

/-- A view: what it shows. -/
def View.toJson (v : View) : Json :=
  .obj [("start_panel", .bool v.startPanel), ("dialogue", .bool v.dialoguePanel),
    ("name", v.name), ("line", .str v.line), ("visible", .ofNat v.visible),
    ("text", .str v.visibleText), ("choices", .ofList Button.toJson v.choices),
    ("focused", Target.toJson v.focus.focused), ("start_focused", .bool v.startFocused),
    ("focused_choice", v.focusedChoice?.getD .null)]

/-- The portraits that are shown, character by character. -/
def Gallery.portraitsJson (g : Gallery) : Json :=
  .ofList (fun (c, p) => .arr [c, p]) g.shown

/-- Integers without repetition in ascending order. -/
def sortedInts (ns : List Int) : List Int := (ns.mergeSort (· ≤ ·)).eraseDups

/-- Values in ascending order, as far as they compare. -/
def sortedValues (vs : List Json) : List Json :=
  vs.mergeSort fun a b => !(b.less a).toOption.getD false

/-- The names of actions, in the order of the actions. -/
def Action.names (as : List Action) : Json := .ofTexts ((all.filter as.contains).map name)

/-- An input: what is held, and what has changed. -/
def Input.toJson (i : Input) : Json :=
  .obj [("pressed", Action.names i.pressed), ("just_pressed", Action.names i.began),
    ("just_released", Action.names i.ended), ("menu", .int i.menuStep),
    ("keys", .arr (sortedValues i.held)), ("gamepads", .ofList .int (sortedInts i.gamepads))]

/-- The set-up of a game. -/
def GameSettings.toJson (g : GameSettings) : Json :=
  .obj [("title", g.title), ("width", g.width), ("height", g.height), ("target_fps", g.fps),
    ("fixed_timestep", g.timestep), ("max_frame_skip", g.maxUpdates),
    ("fullscreen", g.fullscreen), ("resizable", g.resizable)]

/-- Settings by name, and the game they set up. -/
def Settings.toJson (s : Settings) : Json :=
  .obj ((Setting.all.map fun x => (x.name, s x)) ++ [("game", s.game.toJson)])

namespace Sound

/-- Samples: a list of them, or a list for each channel. -/
def Samples.toJson : Samples → Json
  | .mono vs => .ofList .int vs
  | .rows rs => .ofList (.ofList .int) rs

/-- A track: its cue, and its sound if that is loaded. -/
def Track.toJson (t : Track) : Json :=
  let voice (v : Voice) : Json :=
    .obj [("samples", v.samples.toJson), ("volume", .real v.volume)]
  let channel (v : Voice) : Json := .arr [.ofNat v.channel, .bool v.busy]
  .obj [("name", .str t.cue.name), ("clip", .str t.cue.clip), ("volume", .real t.cue.volume),
    ("pitch", .real t.cue.pitch), ("loop", .bool t.cue.loop), ("loops", .int t.cue.loops),
    ("sound", .ofOption voice t.voice), ("channel", .ofOption channel t.voice)]

/-- A jukebox: its theme, its master volume and its tracks. -/
def Jukebox.toJson (j : Jukebox) : Json :=
  .obj [("theme", .ofOption .str j.theme), ("master", .real j.master),
    ("initialized", .bool j.initialized), ("names", .ofTexts j.names),
    ("cues", .ofList Track.toJson j.tracks)]

/-- A call of the mixer. -/
def MixerCall.toJson : MixerCall → Json
  | .init f s c b => .entry "mixer_init" [f, s, c, b]
  | .quit => .entry "mixer_quit" []
  | .setChannels n => .entry "set_num_channels" [.ofNat n]
  | .play c loops => .entry "channel_play" [.ofNat c, .int loops]
  | .stop c => .entry "channel_stop" [.ofNat c]

end Sound
end VisualNovel
