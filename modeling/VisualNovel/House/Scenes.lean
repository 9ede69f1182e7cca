import VisualNovel.House.Screen
import VisualNovel.View.Drawing
/-!
# The scenes of a house

A screen that is entered for the first time takes the jukebox of the house, or sets it up if it is
the first; it provides its dialogue, listens to the player, shows the start panel and plays the
title theme. A screen that is removed for good breaks its dialogue off and leaves nothing behind. A
screen that is replaced has a fresh copy with the same edition.
-/
namespace VisualNovel.House
open Files
variable {τ : Type}

/-- Loads the sound list in a file, if there is one. -/
def loadSounds [Clock τ] (path : Files.Path) (h : House τ) : Attempt (House τ) Fault :=
  match h.disk.exists_ path with
  | .error e => (h, some (.file e))
  | .ok false => (h.report (Log.warning ("Sound list not found: " ++ path.toString)), none)
  | .ok true =>
    let loading := h.jukebox.load h.disk path
    let h := h.play publish (loading.jukebox, loading.effects)
    match loading.count with
    | .ok _ => (h, none)
    | .error e => (h, some e)

/-- Makes the mixer ready and loads the sounds of an edition. -/
def setUpSounds [Clock τ] (e : Edition τ) (h : House τ) : Attempt (House τ) Fault :=
  let h := h.play publish (Sound.Jukebox.initDefault { mixer := h.jukebox.mixer })
  match e.sounds.asText with
  | .error e => (h, some (.misfit e))
  | .ok path => h.loadSounds (.ofString path)

/-- Provides a service. -/
def provide (key : Service) (n : Nat) (h : House τ) : House τ :=
  let (services, _, log) := h.services.provide Service.name key (some n)
  ({ h with services }).reportAll log

/-- Sees to it that there is a jukebox. -/
def needSounds [Clock τ] (n : Nat) (e : Edition τ) (h : House τ) : Attempt (House τ) Fault :=
  if (h.services.get? .sounds).isSome then (h, none)
  else (h.setUpSounds e).andThen fun h => (h.provide .sounds n, none)

/-- Plays a theme; only a text can name one. -/
def playTheme [Clock τ] (theme : Json) (h : House τ) : Attempt (House τ) HouseError :=
  match theme with
  | .str name => (h.play publish (h.jukebox.switchTheme name), none)
  | _ => (h, some (.misfit .part))

/-- A screen that has its gallery is set up and comes to the top. -/
def openScreen [Clock τ] (n : Nat) (e : Edition τ) (gallery : Gallery) (h : House τ) :
    Attempt (House τ) HouseError :=
  let h := h.modifyScreen n fun s => { s with entered := true, gallery }
  let h := (h.provide .dialogue n).subscribe .actionPressed 0 (.screen n)
  (h.showStart publish n).andThen (playTheme e.theme)

/-- A screen comes to the top. -/
def enterScreen [Clock τ] (n : Nat) (h : House τ) : Attempt (House τ) HouseError :=
  match (h.screen? n).filter (!·.entered) with
  | none => (h, none)
  | some s =>
    ((h.needSounds n s.edition).mapError HouseError.fault).andThen fun h =>
      match s.edition.gallery with
      | .error e => (h, some (.misfit e))
      | .ok gallery => h.openScreen n s.edition gallery

/-- Removes the dialogue of a screen from the services. -/
def withdraw (n : Nat) (h : House τ) : House τ :=
  if h.services.get? .dialogue = some n then { h with services := h.services.remove .dialogue }
  else h

/-- A screen is removed for good. -/
def destroyScreen [Clock τ] (n : Nat) (h : House τ) : House τ :=
  let h := h.unsubscribe .actionPressed (.screen n)
  let h := if ((h.screen? n).map (·.entered)).getD false then
      (h.tend publish n fun w d => (d.shutdown w, none)).1.withdraw n
    else h
  (h.tend publish n fun w d => (((Dialogue.host w.stage).cancelAll d).1, none)).1

/-- A scene comes to the top. -/
def enter [Clock τ] (k : SceneId) (h : House τ) : Attempt (House τ) HouseError :=
  match k with
  | .screen n => h.enterScreen n
  | .cover _ | .probe _ => (h, none)

/-- A scene is removed for good. -/
def destroy [Clock τ] (k : SceneId) (h : House τ) : House τ :=
  match k with
  | .screen n => h.destroyScreen n
  | .cover _ => h
  | .probe _ => h.leave .probeDestroyed

/-- A fresh copy of a scene. -/
def recreate [Clock τ] (k : SceneId) (h : House τ) : House τ × SceneId :=
  match k with
  | .screen n =>
    match h.screen? n with
    | some s => h.addScreen s.edition
    | none => (h, k)
  | .cover _ => h.addOther .cover
  | .probe _ => h.addOther .probe

/-- The house as the world of its scenes; every scene hides what is below and blocks its updates. -/
def theatre [Clock τ] : Theatre (House τ) SceneId HouseError where
  scenes h := h.scenes
  withScenes s h := { h with scenes := s }
  enter := enter
  exit _ h := h
  destroy := destroy
  recreate := recreate
  publish topic k h := (publish ⟨topic, .scene k.name⟩ h).1
  isTransparent _ _ := false
  blocksUpdate _ _ := true

/-- Asks for a change of the stack. -/
def ask [Clock τ] (c : SceneChange SceneId) (h : House τ) : House τ := theatre.ask c h

/-- Asks for a new screen. -/
def pushScreen [Clock τ] (e : Edition τ) (h : House τ) : House τ :=
  let (h, k) := h.addScreen e
  h.ask (.push k)

/-- Asks for a new cover or probe. -/
def pushOther [Clock τ] (make : Nat → SceneId) (h : House τ) : House τ :=
  let (h, k) := h.addOther make
  h.ask (.push k)

/-- Time passes for a probe; the game ends with the last update it waits for. -/
def updateProbe (dt : τ) (h : House τ) : House τ :=
  let h := { h with probed := h.probed + 1 }.leave (.probeUpdated dt)
  if h.probeLimit = some h.probed then { h with running := false } else h

/-- Time passes for a scene. -/
def updateScene [Clock τ] (dt : τ) (k : SceneId) (h : House τ) : Attempt (House τ) HouseError :=
  match k with
  | .screen n => h.tend publish n fun w d => d.update w dt
  | .cover _ => (h, none)
  | .probe _ => (h.updateProbe dt, none)

/-- Makes the changes that were asked for and lets time pass. -/
def update [Clock τ] (dt : τ) (h : House τ) : Attempt (House τ) HouseError :=
  theatre.update (updateScene dt) h

/-- Draws a screen: its images, then its view. -/
def drawScreen (n : Nat) (h : House τ) : Attempt (House τ) HouseError :=
  match (h.screen? n).filter (·.entered) with
  | none => (h, some .noScreen)
  | some s =>
    match s.gallery.render? "screen" h.size with
    | none => (h, some .noImage)
    | some images =>
      let (painter, e) := s.view.draw { s.painter with fontsReady := h.fontsReady }
      let h := (images ++ painter.strokes).foldl (fun h s => h.leave (.stroke s)) h
      let h := h.modifyScreen n fun s => { s with painter := { painter with strokes := [] } }
      ({ h with fontsReady := painter.fontsReady }, e.map HouseError.misfit)

/-- Draws a scene. -/
def drawScene (alpha : τ) (k : SceneId) (h : House τ) : Attempt (House τ) HouseError :=
  match k with
  | .screen n => h.drawScreen n
  | .cover _ => (h.leave (.covered alpha), none)
  | .probe _ => (h.leave (.probeRendered alpha), none)

/-- Draws the scenes. -/
def render [Clock τ] (alpha : τ) (h : House τ) : Attempt (House τ) HouseError :=
  theatre.render (drawScene alpha) h

/-- Hands a device event to the scene on top. -/
def tell [Clock τ] (e : DeviceEvent) (h : House τ) : House τ :=
  theatre.onTop
    (fun k h => match k with
      | .probe _ => h.leave (.probeTold e)
      | _ => h) h

/-- Tells every scene the new size of the window. -/
def resize [Clock τ] (width height : Json) (h : House τ) : House τ :=
  theatre.onEach
    (fun k h => match k with
      | .probe _ => h.leave (.probeResized width height)
      | _ => h) h

/-- The number of the screen on top. -/
def top? (h : House τ) : Option Nat :=
  match h.scenes.current? with
  | some (.screen n) => some n
  | _ => none

end VisualNovel.House
