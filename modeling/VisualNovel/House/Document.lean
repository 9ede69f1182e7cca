import VisualNovel.House.Scenes
import VisualNovel.Input.Document
import VisualNovel.Journal.State
/-!
# Houses in the journal

What a house leaves behind, and what can be seen of it.
-/
namespace VisualNovel

/-- A call of the window. -/
def WindowCall.toJson : WindowCall → Json
  | .start => .entry "init" []
  | .open_ w h flags => .entry "set_mode" [.arr [w, h], .ofTexts flags]
  | .title t => .entry "caption" [t]
  | .show => .entry "flip" []
  | .tick rate => .entry "tick" [rate]
  | .close => .entry "quit" []

/-- What a house left behind. -/
def HouseMark.toJson : HouseMark Json → Json
  | .notice n => n.toJson
  | .mixer c => c.toJson
  | .stroke s => s.toJson
  | .window c => c.toJson
  | .sized s => .entry "size" [.int s.width, .int s.height]
  | .covered alpha => .entry "cover" [alpha]
  | .probeUpdated dt => .entry "update" [dt]
  | .probeRendered alpha => .entry "render" [alpha]
  | .probeResized w h => .entry "resize" [w, h]
  | .probeTold e => .entry "handle" [.str e.name]
  | .probeDestroyed => .entry "destroy" []

/-- Whether a mark is part of a drawing. -/
def HouseMark.isDrawing : HouseMark τ → Bool
  | .stroke (.imageLoad _) => false
  | .stroke _ | .window .show => true
  | _ => false

/-- A screen: its session, its view, its images, the sounds and its tasks. -/
def Screen.toJson (jukebox : Sound.Jukebox) (s : Screen Json) : Json :=
  .obj [("session", .obj s.dialogue.session.fields), ("view", s.view.toJson),
    ("splash", s.gallery.splash), ("characters", s.gallery.portraitsJson),
    ("theme", .ofOption .str jukebox.theme),
    ("playing", .ofTexts (jukebox.names.filter jukebox.isPlaying)),
    ("tasks", .arr s.dialogue.taskNames)]

namespace House

/-- The names of the scenes from the bottom up. -/
def sceneNames (h : House Json) : Json := .ofTexts (h.scenes.bottomUp.map SceneId.name)

/-- The screen on top, if it was entered. -/
def topJson (h : House Json) : Json :=
  .ofOption (Screen.toJson h.jukebox) ((h.top?.bind h.screen?).filter (·.entered))

/-- The names of the services that are there. -/
def serviceNames (h : House Json) : Json :=
  .ofTexts (([.sounds, .dialogue].filter h.services.contains).map Service.name)

end House
end VisualNovel
