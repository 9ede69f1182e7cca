import VisualNovel.Fault
import VisualNovel.Files.Disk
import VisualNovel.Json.Reader
import VisualNovel.Log
/-!
# Settings

The settings of a novel are a value for each of twelve names. A settings file is a JSON object that
overrides some of them; its values are taken as they are, but that paths are seen from the folder
of the file. Unknown names are reported and passed over; a file that is missing, is not JSON or
holds no object leaves the defaults. These lead into the home of the data that comes with the
library.
-/
namespace VisualNovel
open Files

/-- What can be set. -/
inductive Setting where
  | title
  | width
  | height
  | fps
  | charInterval
  | textScrollCue
  | titleTheme
  | choiceSlots
  | script
  | sounds
  | portraits
  | splashes
  deriving DecidableEq, Repr

namespace Setting

/-- Every setting. -/
def all : List Setting :=
  [title, width, height, fps, charInterval, textScrollCue, titleTheme, choiceSlots, script, sounds,
    portraits, splashes]

/-- The name of a setting in a file. -/
def name : Setting → String
  | title => "title"
  | width => "width"
  | height => "height"
  | fps => "fps"
  | charInterval => "char_interval"
  | textScrollCue => "text_scroll_cue"
  | titleTheme => "title_theme"
  | choiceSlots => "choice_slots"
  | script => "script"
  | sounds => "sounds"
  | portraits => "portraits_path"
  | splashes => "splashes_path"

/-- The setting with a name. -/
def ofName? (name : String) : Option Setting := all.find? (·.name = name)

/-- Whether a setting is a path. -/
def isPath : Setting → Bool
  | script | sounds | portraits | splashes => true
  | _ => false

/-- A path into a folder. -/
def pathIn (folder : Files.Path) (name : String) : Json :=
  .str (folder.join ⟨.here, [name]⟩).toString

/-- The value of a setting that no file overrides. -/
def default (home : Files.Path) : Setting → Json
  | title => .str "Visual Novel"
  | width => .int 1280
  | height => .int 720
  | fps => .int 60
  | charInterval => .real 0.03
  | textScrollCue => .str "Text_Scroll"
  | titleTheme => .str "Frigid"
  | choiceSlots => .int 3
  | script => pathIn home "story.ink"
  | sounds => pathIn home "sounds.json"
  | portraits => pathIn home "portraits"
  | splashes => pathIn home "splashes"

end Setting

/-- A value for each setting. -/
abbrev Settings := Setting → Json

namespace Settings

/-- The defaults. -/
def default (home : Files.Path) : Settings := Setting.default home

/-- Settings with another value for one of them. -/
def set (settings : Settings) (s : Setting) (value : Json) : Settings :=
  fun t => if t = s then value else settings t

/-- The value of a setting that a file in a folder gives. -/
def valueIn (folder : Files.Path) (s : Setting) (value : Json) : Except Misfit Json :=
  if s.isPath then
    value.asText.map fun t => .str (folder.join (.ofString t)).toString
  else .ok value

/-- Overrides settings by the members of a settings file. -/
def override (path : Files.Path) :
    List (String × Json) → Settings → Except Fault Settings × List Log.Entry
  | [], settings => (.ok settings, [])
  | (name, value) :: members, settings =>
    match Setting.ofName? name with
    | none =>
      let (r, log) := override path members settings
      (r, Log.warning ("Unknown config key '" ++ name ++ "' in " ++ path.toString) :: log)
    | some s =>
      match valueIn path.parent s value with
      | .error e => (.error (.misfit e), [])
      | .ok value => override path members (settings.set s value)

/-- Reads the text of a settings file over defaults. -/
def ofText (defaults : Settings) (path : Files.Path) (text : String) :
    Except Fault Settings × List Log.Entry :=
  match Json.parse text with
  | .error (.misfit e) => (.error (.misfit e), [])
  | .error .notJson =>
    (.ok defaults, [Log.error
      ("Invalid config file " ++ path.toString ++ ": JSONDecodeError; using defaults")])
  | .ok (.obj members) => override path members defaults
  | .ok _ =>
    (.ok defaults, [Log.error
      ("Config file " ++ path.toString ++ " must contain an object; using defaults")])

/-- Reads a settings file over defaults. -/
def load (defaults : Settings) (disk : Disk) (path : Files.Path) :
    Except Fault Settings × List Log.Entry :=
  match disk.exists_ path with
  | .error e => (.error (.file e), [])
  | .ok false =>
    (.ok defaults,
      [Log.warning ("Config file not found: " ++ path.toString ++ "; using defaults")])
  | .ok true =>
    match disk.readText path with
    | .error e => (.error (.file e), [])
    | .ok text => ofText defaults path text

end Settings

/-- How the window and the loop of a game are set up. -/
structure GameSettings where
  title : Json := .str "Visual Novel"
  width : Json := .int 1280
  height : Json := .int 720
  /-- Frames a second. -/
  fps : Json := .int 60
  /-- Seconds an update stands for. -/
  timestep : Json := .real (1 / 60)
  /-- The most updates in a frame. -/
  maxUpdates : Json := .int 5
  fullscreen : Json := .bool false
  resizable : Json := .bool false

/-- The game that shows a novel. -/
def Settings.game (s : Settings) : GameSettings where
  title := s .title
  width := s .width
  height := s .height
  fps := s .fps

end VisualNovel
