import VisualNovel.Files.Bundle
import VisualNovel.House.Scenes
import VisualNovel.Loop.Pace
/-!
# A game

A game opens a window, and then lives from frame to frame. In a frame it takes in what the devices
report, is updated as often as its pace demands, and is drawn. Once it was asked to quit, by the
window or by the player, it ends with the frame: the stack is cleared and the window closed.

What cannot be done in a frame breaks the game off.
-/
namespace VisualNovel
open Files

/-- A game. -/
structure Game (τ : Type) where
  house : House τ
  input : Input := .start []
  pace : Pace τ
  /-- Frames a second. -/
  rate : Json
  /-- The time of the last frame. -/
  now : τ
  /-- The time that updates have not caught up with. -/
  carried : τ

namespace Game
variable {τ : Type}

/-- Changes the house of a game. -/
def withHouse (f : House τ → House τ) (g : Game τ) : Game τ := { g with house := f g.house }

/-- Does something in the house of a game. -/
def inHouse (f : House τ → Attempt (House τ) HouseError) (g : Game τ) :
    Attempt (Game τ) HouseError :=
  let (house, e) := f g.house
  ({ g with house }, e)

/-- What is asked of the window to open it. -/
def openingCalls (s : GameSettings) : List WindowCall :=
  let flags := (if s.fullscreen.isTruthy then ["FULLSCREEN"] else []) ++
    (if s.resizable.isTruthy then ["RESIZABLE"] else [])
  [.start, .open_ s.width s.height flags, .title s.title]

/-- The house of a game: the game listens to the player, and the recorder to everything. -/
def openHouse (s : GameSettings) (h : House τ) : House τ :=
  let side (j : Json) : Int := (pixel j).toOption.getD 0
  let size : Size := ⟨side s.width, side s.height⟩
  let h := (openingCalls s).foldl (fun h c => h.leave (.window c)) { h with size, converts := true }
  ((h.subscribe .actionPressed 0 .game).leave (.sized size)).record

/-- A game at a time. -/
def open_ [Clock τ] (s : GameSettings) (pace : Pace τ) (time : τ) (h : House τ) : Game τ :=
  { house := openHouse s h, pace, rate := s.fps, now := time, carried := Clock.origin τ }

/-- The game begins. -/
def begin [Clock τ] (g : Game τ) : Game τ :=
  g.withHouse fun h => (({ h with running := true }).publish (.plain .gameStart)).1

/-- Takes in what a device reports. -/
def takeIn [Clock τ] (e : DeviceEvent) (g : Game τ) : Attempt (Game τ) HouseError :=
  match e, e.misfit? with
  | .quit, _ => (g.withHouse fun h => { h with running := false }, none)
  | .resize w h, _ => (g.withHouse (·.resize w h), none)
  | _, some m => (g, some (.misfit m))
  | e, none =>
    let g := { g with input := g.input.process e }
    let h := (Input.noticesOf e).foldl (fun h n => (h.publish n).1) g.house
    ({ g with house := h.tell e }, none)

/-- One update: the changes of the input are published, then time passes for the scenes. -/
def update [Clock τ] (g : Game τ) : Attempt (Game τ) HouseError :=
  let g := { g with input := g.input.update }
  let g := g.withHouse fun h => g.input.changes.foldl (fun h n => (h.publish n).1) h
  g.inHouse (·.update g.pace.step)

/-- The color that the surface has before anything is drawn. -/
def black : Color := [.int 0, .int 0, .int 0]

/-- Draws the scenes on a black surface. -/
def draw [Clock τ] (g : Game τ) : Attempt (Game τ) HouseError :=
  match g.pace.progress g.carried with
  | .error e => (g, some (.misfit e))
  | .ok alpha =>
    let g := g.withHouse (·.leave (.stroke (.fill "screen" black)))
    (g.inHouse (·.render alpha)).andThen fun g => (g.withHouse (·.leave (.window .show)), none)

/-- The updates of a frame, then its drawing. -/
def carryOut [Clock τ] (plan : Plan τ) (g : Game τ) : Attempt (Game τ) HouseError :=
  (Attempt.times update plan.updates g).andThen fun g =>
    match plan.fault with
    | some e => (g, some (.misfit e))
    | none => g.draw.andThen fun g => (g.withHouse (·.leave (.window (.tick g.rate))), none)

/-- One frame at a time, with what the devices report. -/
def frame [Clock τ] (time : τ) (events : List DeviceEvent) (g : Game τ) :
    Attempt (Game τ) HouseError :=
  match Pace.gather g.carried g.now time with
  | .error e => (g, some (.misfit e))
  | .ok total =>
    let plan := g.pace.plan total
    (Attempt.inTurn takeIn events { g with now := time, carried := plan.carried }).andThen
      (carryOut plan)

/-- The game ends. -/
def close [Clock τ] (g : Game τ) : Attempt (Game τ) HouseError :=
  let g := g.withHouse fun h => ((h.report (Log.info "Shutting down")).publish (.plain .gameQuit)).1
  (g.inHouse fun h => (h.ask .clear).update (Clock.origin τ)).andThen fun g =>
    (g.withHouse (·.leave (.window .close)), none)

/-- Forgets what was left behind so far. -/
def forget (g : Game τ) : Game τ := g.withHouse fun h => { h with marks := [], log := [] }

/-- How a game went: what it was at the end of each frame, what it was at its end, and what broke it
off, if anything. Each holds what was left behind since the one before. -/
structure Course (τ : Type) where
  frames : List (Game τ)
  last : Game τ
  error : Option HouseError

/-- Goes on after a frame, if the game is still running. -/
def andThen [Clock τ] (r : Attempt (Game τ) HouseError) (next : Game τ → Course τ) : Course τ :=
  match r with
  | (g, some e) => ⟨[], g, some e⟩
  | (g, none) =>
    let course :=
      if g.house.running then next g.forget
      else
        let (last, error) := g.forget.close
        ⟨[], last, error⟩
    { course with frames := g :: course.frames }

/-- Plays the frames at their times; then time stands still and the window is closed. -/
def play [Clock τ] : List (τ × List DeviceEvent) → Game τ → Course τ
  | [], g => andThen (g.frame g.now [.quit]) fun g => ⟨[], g, none⟩
  | (time, events) :: frames, g => andThen (g.frame time events) (play frames)

/-- The house of a game: the given files, and those that come with the library in their home. -/
def houseOf (home : Files.Path) (disk : Disk) (log : List Log.Entry) : House τ :=
  { disk := disk ++ Disk.bundle home, log }

end Game

/-- The pace that settings set. -/
def GameSettings.pace (s : GameSettings) : Pace Json := ⟨s.timestep, .ofJson s.maxUpdates⟩

/-- The game that shows a novel. -/
def Settings.open_ (s : Settings) (home : Files.Path) (disk : Disk) (log : List Log.Entry)
    (time : Json) : Game Json :=
  (Game.open_ s.game s.game.pace time (Game.houseOf home disk log)).withHouse
    (·.pushScreen s.edition)

end VisualNovel
