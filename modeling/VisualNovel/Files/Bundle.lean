import VisualNovel.Files.Disk
/-!
# The bundle

The sample story and the sound list that come with the library. They lie in a folder of their own,
the home of the bundle, wherever that is.
-/
namespace VisualNovel.Files

/-- The lines of the sample story. -/
def sampleStory : List String :=
  ["// Sample story. Tags on their own line apply to the next line of dialogue.",
    "",
    "=== intro",
    "# speaker: NONE",
    "# splash: snowfield",
    "# switchTheme: Frigid",
    "The wind howls across the ridge, carrying snow sideways.",
    "A figure waves from the trail ahead. # speaker: NONE # playSound: Footsteps",
    "# speaker: Aria",
    "# expression: Aria_shiver",
    "Cold, isn't it? The cabin is just below the pass.",
    "* Head down to the cabin -> cabin",
    "* Keep walking the ridge -> ridge",
    "",
    "=== cabin",
    "# splash: cabin",
    "# stopSound: Footsteps",
    "# switchTheme: Hearth",
    "The door swings open onto warm, dry air.",
    "Told you it was close. # speaker: Aria # expression: Aria_happy",
    "-> END",
    "",
    "=== ridge",
    "# speaker: Aria",
    "# expression: Aria_worried",
    "The ridge? In this weather?",
    "# speaker: NONE",
    "The storm closes in, and the trail disappears under fresh snow.",
    "-> END"]

/-- A line of a sound list: the name of a cue, its clip, and its other members. -/
def soundLine (name clip rest : String) : String :=
  "  \x7b\"name\": \"" ++ name ++ "\", \"clip\": \"audio/" ++ clip ++ "\", " ++ rest ++ "\x7d"

/-- The lines of the sound list of the sample story. -/
def sampleSounds : List String :=
  ["[",
    soundLine "Frigid" "frigid.ogg" "\"volume\": 0.6, \"loop\": true" ++ ",",
    soundLine "Hearth" "hearth.ogg" "\"volume\": 0.6, \"loop\": true" ++ ",",
    soundLine "Text_Scroll" "text_scroll.wav" "\"volume\": 0.35, \"pitch\": 1.2" ++ ",",
    soundLine "Footsteps" "footsteps.wav" "\"volume\": 0.8, \"loop\": true",
    "]"]

/-- A file in a folder that holds lines. -/
def Entry.ofLines (folder : Path) (name : String) (lines : List String) : Entry :=
  ⟨folder.join ⟨.here, [name]⟩, .bytes (String.join (lines.map (· ++ "\n"))).toUTF8⟩

/-- The library's own data in its home. -/
def Disk.bundle (home : Path) : Disk :=
  [.ofLines home "story.ink" sampleStory, .ofLines home "sounds.json" sampleSounds]

end VisualNovel.Files
