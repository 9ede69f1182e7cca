import VisualNovel.House.Basic
import VisualNovel.Story.ScriptFile
/-!
# A screen of a novel

A screen shows a start panel; to confirm there loads the story and begins it. While a choice has the
focus, to confirm is to take it; the menu actions move the focus. When the story ends, the screen
asks once to be replaced by a fresh copy of itself.

Everything here is told how to publish an event. From outside that is to deliver it; while an event
is being delivered it is to queue it.
-/
namespace VisualNovel.House
open Files
variable {τ : Type}

/-- A way to publish events; it says whether the event was consumed. -/
abbrev Publisher (τ : Type) := Notice → House τ → House τ × Bool

/-- Queues an event. -/
def queue : Publisher τ := fun n h => ({ h with bus := h.bus.enqueue n }, false)

/-- Lets an effect of the jukebox reach the outside. -/
def sound (publish : Publisher τ) (h : House τ) : Sound.Effect → House τ
  | .mixer c => h.leave (.mixer c)
  | .notice n => (publish n h).1
  | .log e => h.report e

/-- Makes what came of an operation of the jukebox count. -/
def play (publish : Publisher τ) (h : House τ) (r : Sound.Jukebox × List Sound.Effect) : House τ :=
  r.2.foldl (sound publish) { h with jukebox := r.1 }

/-- Makes what came of a request for an image count. -/
def hang (n : Nat) (h : House τ) (r : Gallery.Request) : Attempt (House τ) Fault :=
  let h := r.effects.foldl
    (fun h e => match e with
      | .stroke s => h.leave (.stroke s)
      | .log e => h.report e)
    (h.modifyScreen n fun s => { s with gallery := r.gallery })
  match r.found with
  | .ok _ => (h, none)
  | .error e => (h, some e)

/-- Goes on with a value, if it fits. -/
def fitting (r : Except Misfit α) (next : α → House τ) (h : House τ) : Attempt (House τ) Fault :=
  match r with
  | .ok x => (next x, none)
  | .error e => (h, some (.misfit e))

/-- Answers a call of the dialogue of a screen. -/
def perform (publish : Publisher τ) (n : Nat) (c : Call) (h : House τ) : Attempt (House τ) Fault :=
  match c, h.screen? n with
  | _, none => (h, none)
  | .play name, _ => h.fitting (h.jukebox.withCue Sound.Jukebox.play name) (h.play publish)
  | .stop name, _ => (h.play publish (h.jukebox.stop name), none)
  | .switchTheme name, _ => (h.play publish (h.jukebox.switchTheme name), none)
  | .expression character id, some s =>
    h.hang n (s.gallery.setExpression h.disk h.converts (.str character) (.str id))
  | .splash id, some s => h.hang n (s.gallery.setSplash h.disk h.converts (.str id))
  | c, some s => h.fitting (s.view.perform c) fun v => h.modifyView n fun _ => v

/-- The stage of a screen. -/
def stage (publish : Publisher τ) (n : Nat) : Stage (House τ) where
  perform := perform publish n
  report := report
  slots h := ((h.screen? n).map (·.view.slots)).getD (.count 0)

/-- The priority of a dialogue that listens to the player; its screen comes after it. -/
def dialoguePriority : Int := 10

/-- How the dialogue of a screen is wired. -/
def wiring (publish : Publisher τ) (n : Nat) (e : Edition τ) : Wiring τ (House τ) where
  manner := ⟨stage publish n, e.interval, e.sound⟩
  publish note d := (((publish note (restore n d)).1).dialogue? n).getD d
  listen h := (h.subscribe .actionPressed dialoguePriority (.dialogue n), none)
  unlisten := unsubscribe .actionPressed (.dialogue n)
  focusStart h := h.modifyView n (·.setFocus (some startButton))

/-- Runs something with the dialogue of a screen and puts the dialogue back. -/
def converse (publish : Publisher τ) (n : Nat) (default : β)
    (f : Wiring τ (House τ) → Dialogue τ Unit (House τ) → Dialogue τ Unit (House τ) × β)
    (h : House τ) : House τ × β :=
  match h.screen? n with
  | none => (h, default)
  | some s =>
    let (d, b) := f (wiring publish n s.edition) (s.dialogue.within h)
    (restore n d, b)

/-- Runs something with the dialogue of a screen, in which it may break off. -/
def tend (publish : Publisher τ) (n : Nat)
    (f : Wiring τ (House τ) → Dialogue τ Unit (House τ) →
      Attempt (Dialogue τ Unit (House τ)) Fault)
    (h : House τ) : Attempt (House τ) HouseError :=
  Attempt.mapError HouseError.fault (h.converse publish n none f)

/-- The story of a screen has ended: the first time, the top scene is to be replaced. -/
def storyEnded (n : Nat) (h : House τ) : House τ :=
  match h.screen? n with
  | none => h
  | some s =>
    if s.ended then h
    else
      let h := h.modifyScreen n fun s => { s with ended := true }
      { h with scenes := h.scenes.ask .reload }

/-- Gives a command to the dialogue of a screen. -/
def command (publish : Publisher τ) (n : Nat)
    (f : Wiring τ (House τ) → Dialogue τ Unit (House τ) → Dialogue τ Unit (House τ) × Turn)
    (h : House τ) : Attempt (House τ) HouseError :=
  match h.converse publish n .done f with
  | (h, .done) => (h, none)
  | (h, .ended) => (h.storyEnded n, none)
  | (h, .refused e) => (h, some (.play e))
  | (h, .unreadable e) => (h, some (.format e))
  | (h, .failed e) => (h, some (.fault e))

/-- Shows the start panel and hands the focus to its button. -/
def showStart [Clock τ] (publish : Publisher τ) (n : Nat) (h : House τ) :
    Attempt (House τ) HouseError :=
  (h.modifyView n View.showStart).tend publish n fun w d => d.startStartFocus w

/-- The report that a story cannot be loaded. -/
def notLoaded (script reason : String) : Log.Entry :=
  Log.error ("Could not load story " ++ script ++ ": " ++ reason)

/-- The report that a story cannot be begun. -/
def notBegun (script reason : String) : Log.Entry :=
  Log.error ("Invalid story " ++ script ++ ": " ++ reason)

/-- Begins a story on a screen; a text that is no story leads back to the start panel. -/
def beginStory [Clock τ] (publish : Publisher τ) (n : Nat) (script text : String) (h : House τ) :
    Attempt (House τ) HouseError :=
  match (h.modifyView n View.showDialogue).command publish n fun w d => d.begin w (.str text) with
  | (h, some (.format e)) =>
    if e.isRefusal then (h.report (notBegun script e.message)).showStart publish n
    else (h, some (.format e))
  | r => r

/-- Loads the story of a screen from a file and begins it. -/
def startFrom [Clock τ] (publish : Publisher τ) (n : Nat) (s : Screen τ) (script : String)
    (h : House τ) : Attempt (House τ) HouseError :=
  let (r, log) := Story.loadContent h.disk (.ofString script)
  let h := h.reportAll log
  match r with
  | .error (.file e) =>
    if e.isSystem then (h.report (notLoaded script e.name), none)
    else (h, some (.fault (.file e)))
  | .error (.script e) => (h.report (notLoaded script e.message), none)
  | .error .noName => (h.report (notLoaded script FileError.notFound.name), none)
  | .ok text => if s.entered then h.beginStory publish n script text else (h, some .noScreen)

/-- Loads the story of a screen and begins it. -/
def startStory [Clock τ] (publish : Publisher τ) (n : Nat) (h : House τ) :
    Attempt (House τ) HouseError :=
  match h.screen? n with
  | none => (h, some .noScreen)
  | some s =>
    match s.edition.script.asText with
    | .error e => (h, some (.misfit e))
    | .ok script => h.startFrom publish n s script

/-- Takes one of the choices on a screen. -/
def choose [Clock τ] (publish : Publisher τ) (n : Nat) (index : Json) (h : House τ) :
    Attempt (House τ) HouseError :=
  if (h.screen? n).any (·.entered) then h.command publish n fun w d => d.choose w index
  else (h, some .noScreen)

/-- The playback of the cue that a value names comes to its end on a screen. -/
def finishCue (n : Nat) (cue : Json) (h : House τ) : Attempt (House τ) HouseError :=
  if (h.screen? n).any (·.entered) then
    match h.jukebox.finish cue with
    | .ok jukebox => ({ h with jukebox }, none)
    | .error e => (h, some (.misfit e))
  else (h, some .noScreen)

/-- The player confirms on a screen. -/
def confirm [Clock τ] (publish : Publisher τ) (n : Nat) (h : House τ) :
    Attempt (House τ) HouseError :=
  match h.screen? n with
  | none => (h, none)
  | some s =>
    if s.view.startFocused then h.startStory publish n
    else
      match s.view.focusedChoice? with
      | some slot =>
        if s.dialogue.session.active then h.choose publish n slot else (h, none)
      | none => (h, none)

/-- A screen hears of an action of the player. -/
def hear [Clock τ] (publish : Publisher τ) (n : Nat) (a : Action) (h : House τ) :
    Attempt (House τ) HouseError :=
  match a with
  | .confirm => h.confirm publish n
  | .menuUp => (h.modifyView n fun v => (v.moveFocus (-1)).1, none)
  | .menuDown => (h.modifyView n fun v => (v.moveFocus 1).1, none)
  | .quit => (h, none)

/-- A listener hears of an event while it is delivered. -/
def listen [Clock τ] (l : Subscriber) (note : Notice) (h : House τ) :
    Attempt (House τ) HouseError :=
  match l, note.action? with
  | .recorder, _ => (h.leave (.notice note), none)
  | .game, some .quit => ({ h with running := false }, none)
  | .screen n, some a => h.hear queue n a
  | .dialogue n, some .confirm => h.command queue n fun w d => d.advance w
  | _, _ => (h, none)

/-- The house as the world of its bus. -/
def exchange [Clock τ] : Exchange (House τ) Subscriber Detail where
  bus h := h.bus
  withBus b h := { h with bus := b }
  report := report
  isLive _ _ := true
  call l note h :=
    let (h, e) := h.listen l note
    (h, ⟨false, e.isSome⟩)

/-- Publishes an event. -/
def publish [Clock τ] : Publisher τ := exchange.publish

end VisualNovel.House
