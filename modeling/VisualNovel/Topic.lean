/-!
# Topics

The kinds of events that pass over the bus, and the actions a player can take.
-/
namespace VisualNovel

/-- What an event is about. -/
inductive Topic where
  | gameStart
  | gameQuit
  | scenePushed
  | scenePopped
  | sceneSwitched
  | sceneReloaded
  | soundPlayed
  | soundStopped
  | themeSwitched
  | dialogueStarted
  | lineStarted
  | lineRevealed
  | choicesShown
  | choiceMade
  | dialogueEnded
  | actionPressed
  | actionReleased
  | gamepadConnected
  deriving DecidableEq, Repr

namespace Topic

/-- Every topic. -/
def all : List Topic :=
  [gameStart, gameQuit, scenePushed, scenePopped, sceneSwitched, sceneReloaded, soundPlayed,
    soundStopped, themeSwitched, dialogueStarted, lineStarted, lineRevealed, choicesShown,
    choiceMade, dialogueEnded, actionPressed, actionReleased, gamepadConnected]

/-- The name of a topic in messages. -/
def name : Topic → String
  | gameStart => "EngineEvent.GAME_START"
  | gameQuit => "EngineEvent.GAME_QUIT"
  | scenePushed => "EngineEvent.SCENE_PUSHED"
  | scenePopped => "EngineEvent.SCENE_POPPED"
  | sceneSwitched => "EngineEvent.SCENE_SWITCHED"
  | sceneReloaded => "EngineEvent.SCENE_RELOADED"
  | soundPlayed => "AudioEvent.SOUND_PLAYED"
  | soundStopped => "AudioEvent.SOUND_STOPPED"
  | themeSwitched => "AudioEvent.THEME_SWITCHED"
  | dialogueStarted => "NovelEvent.DIALOGUE_STARTED"
  | lineStarted => "NovelEvent.LINE_STARTED"
  | lineRevealed => "NovelEvent.LINE_REVEALED"
  | choicesShown => "NovelEvent.CHOICES_SHOWN"
  | choiceMade => "NovelEvent.CHOICE_MADE"
  | dialogueEnded => "NovelEvent.DIALOGUE_ENDED"
  | actionPressed => "InputEvent.ACTION_PRESSED"
  | actionReleased => "InputEvent.ACTION_RELEASED"
  | gamepadConnected => "InputEvent.GAMEPAD_CONNECTED"

/-- The topic with a name. -/
def ofName? (name : String) : Option Topic := all.find? (·.name = name)

end Topic

/-- What a player can do, whatever device it is done with. -/
inductive Action where
  | menuUp
  | menuDown
  | confirm
  | quit
  deriving DecidableEq, Repr

namespace Action

/-- Every action, in the order in which they are published. -/
def all : List Action := [menuUp, menuDown, confirm, quit]

/-- The name of an action. -/
def name : Action → String
  | menuUp => "MENU_UP"
  | menuDown => "MENU_DOWN"
  | confirm => "CONFIRM"
  | quit => "QUIT"

/-- The action with a name. -/
def ofName? (name : String) : Option Action := all.find? (·.name = name)

end Action
end VisualNovel
