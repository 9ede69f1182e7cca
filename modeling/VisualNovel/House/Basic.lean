import VisualNovel.Dialogue.Commands
import VisualNovel.Gallery
import VisualNovel.House.Edition
import VisualNovel.Input
import VisualNovel.Painter
import VisualNovel.SceneStack
import VisualNovel.Services
import VisualNovel.Sound.Jukebox
import VisualNovel.View.Basic
/-!
# The house

A house is all that the screens of a game share: the files, the bus, the services, the jukebox, the
stack of scenes, and the record of what reached the outside. A screen of a novel has a dialogue, a
view and a gallery of its own; it gets them when it is entered for the first time.
-/
namespace VisualNovel
open Files

/-- A scene of a house. -/
inductive SceneId where
  /-- A screen of a novel, by its number. -/
  | screen (number : Nat)
  /-- A scene that hides all below it. -/
  | cover (number : Nat)
  /-- A scene that writes down what it is told. -/
  | probe (number : Nat)
  deriving DecidableEq, Repr

/-- The name of a scene in messages. -/
def SceneId.name : SceneId → String
  | screen _ => "NovelScene"
  | cover _ => "Cover"
  | probe _ => "Spy"

/-- Who listens on the bus of a house. -/
inductive Subscriber where
  /-- Writes down every event that is delivered. -/
  | recorder
  | game
  /-- A screen of a novel. -/
  | screen (number : Nat)
  /-- The dialogue of a screen. -/
  | dialogue (number : Nat)
  deriving DecidableEq, Repr

/-- The services that screens share. -/
inductive Service where
  | sounds
  | dialogue
  deriving DecidableEq, Repr

/-- The name of a service in messages. -/
def Service.name : Service → String
  | sounds => "AudioManager"
  | dialogue => "DialogueDriver"

/-- A screen of a novel. -/
structure Screen (τ : Type) where
  edition : Edition τ
  /-- Whether it was entered. -/
  entered : Bool := false
  /-- Its dialogue, apart from its surroundings. -/
  dialogue : Dialogue τ Unit Unit
  view : View
  gallery : Gallery
  painter : Painter
  /-- Whether the end of its story was made known. -/
  ended : Bool := false

/-- What is asked of the window and the clock. -/
inductive WindowCall where
  | open_ (width height : Json) (flags : List String)
  | start
  | title (text : Json)
  | show
  | tick (rate : Json)
  | close

/-- What a house leaves behind. -/
inductive HouseMark (τ : Type) where
  | notice (n : Notice)
  | mixer (c : Sound.MixerCall)
  | stroke (s : Stroke)
  | window (c : WindowCall)
  /-- The size of the window. -/
  | sized (size : Size)
  /-- A cover was drawn. -/
  | covered (alpha : τ)
  | probeUpdated (dt : τ)
  | probeRendered (alpha : τ)
  | probeResized (width height : Json)
  | probeTold (e : DeviceEvent)
  | probeDestroyed

/-- Why something cannot be done in a house. -/
inductive HouseError where
  | fault (e : Fault)
  | play (e : Story.PlayError)
  | format (e : Story.FormatError)
  /-- A screen was not entered yet, or there is none. -/
  | noScreen
  /-- An image to draw is missing. -/
  | noImage
  deriving DecidableEq

/-- A value does not fit. -/
def HouseError.misfit (e : Misfit) : HouseError := fault (.misfit e)

/-- What the screens of a game share. -/
structure House (τ : Type) where
  disk : Disk := []
  size : Size := ⟨800, 600⟩
  /-- Whether images are brought into the format of the screen. -/
  converts : Bool := false
  fontsReady : Bool := false
  bus : Bus Subscriber Detail := {}
  /-- The instances of the services: the numbers of the screens that made them. -/
  services : Services Service Nat := []
  jukebox : Sound.Jukebox := {}
  scenes : SceneStack SceneId := {}
  screens : List (Screen τ) := []
  /-- The number of covers and probes that were made. -/
  made : Nat := 0
  running : Bool := false
  /-- The updates after which a probe ends the game. -/
  probeLimit : Option Nat := none
  /-- The updates that probes were told of. -/
  probed : Nat := 0
  marks : List (HouseMark τ) := []
  log : List Log.Entry := []

namespace Dialogue
variable {τ α ω : Type}

/-- A dialogue in surroundings. -/
def within (outside : ω) (d : Dialogue τ α Unit) : Dialogue τ α ω :=
  ⟨d.session, d.story, d.scheduler, d.reveal, d.focus, outside⟩

/-- A dialogue apart from its surroundings. -/
def alone (d : Dialogue τ α ω) : Dialogue τ α Unit :=
  ⟨d.session, d.story, d.scheduler, d.reveal, d.focus, ()⟩

end Dialogue

namespace House
variable {τ : Type}

/-- Records a mark. -/
def leave (m : HouseMark τ) (h : House τ) : House τ := { h with marks := h.marks ++ [m] }

/-- Records a report. -/
def report (e : Log.Entry) (h : House τ) : House τ := { h with log := h.log ++ [e] }

/-- Records reports in order. -/
def reportAll (es : List Log.Entry) (h : House τ) : House τ := { h with log := h.log ++ es }

/-- The screen with a number. -/
def screen? (n : Nat) (h : House τ) : Option (Screen τ) := h.screens[n]?

/-- Changes a screen. -/
def modifyScreen (n : Nat) (f : Screen τ → Screen τ) (h : House τ) : House τ :=
  { h with screens := h.screens.modify n f }

/-- Changes the view of a screen. -/
def modifyView (n : Nat) (f : View → View) (h : House τ) : House τ :=
  h.modifyScreen n fun s => { s with view := f s.view }

/-- Adds a screen that was not entered yet. -/
def addScreen [Clock τ] (e : Edition τ) (h : House τ) : House τ × SceneId :=
  let screen : Screen τ := {
    edition := e
    dialogue := .start ()
    view := {
      width := .int h.size.width, height := .int h.size.height, slots := e.slots, title := e.title }
    gallery := { portraits := ⟨.here, []⟩, splashes := ⟨.here, []⟩ }
    painter := { surface := "screen" } }
  ({ h with screens := h.screens ++ [screen] }, .screen h.screens.length)

/-- The number of a new cover or probe. -/
def addOther (make : Nat → SceneId) (h : House τ) : House τ × SceneId :=
  ({ h with made := h.made + 1 }, make h.made)

/-- Subscribes a listener. The priorities in a house are integers, so they all compare. -/
def subscribe (t : Topic) (priority : Int) (l : Subscriber) (h : House τ) : House τ :=
  { h with bus := ((h.bus.subscribe t ⟨.int priority, l, false, false⟩).toOption).getD h.bus }

/-- Removes the subscriptions of a listener. -/
def unsubscribe (t : Topic) (l : Subscriber) (h : House τ) : House τ :=
  { h with bus := h.bus.unsubscribe (fun _ => true) t l }

/-- Before everything else. -/
def recorderPriority : Int := 1000000000

/-- Subscribes the recorder to every topic. -/
def record (h : House τ) : House τ :=
  Topic.all.foldl (fun h t => h.subscribe t recorderPriority .recorder) h

/-- The dialogue of a screen, with the house around it. -/
def dialogue? (n : Nat) (h : House τ) : Option (Dialogue τ Unit (House τ)) :=
  (h.screen? n).map fun s => s.dialogue.within h

/-- Puts the dialogue of a screen back into the house around it. -/
def restore (n : Nat) (d : Dialogue τ Unit (House τ)) : House τ :=
  d.outside.modifyScreen n fun s => { s with dialogue := d.alone }

end House
end VisualNovel
