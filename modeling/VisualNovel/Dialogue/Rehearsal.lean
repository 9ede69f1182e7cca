import VisualNovel.Dialogue.Commands
import VisualNovel.Story.ScriptFile
import VisualNovel.View.Basic
/-!
# Rehearsals

A rehearsal is a dialogue on a bus of its own, with hooks that give orders of their own while an
event is being delivered. An event that is published during a delivery is queued, so hooks are
called one after the other and never inside each other; a hook that fails is reported by the bus.
When a story ends, the next one of a list may be begun.
-/
namespace VisualNovel

/-- A story to begin: content, or a script, which should be a text. -/
inductive Material where
  | content (content : Json)
  | script (script : Json)

/-- An order to a dialogue. What it is given may be any value. -/
inductive Order (τ : Type) where
  | begin (story : Material)
  /-- Let time pass, a number of times. -/
  | update (dt : τ) (times : Json)
  | advance
  | goOn
  | choose (index : Json)
  /-- The player begins the action with a name. -/
  | act (action : String)
  | shutdown
  /-- Move the focus of the view. -/
  | move (delta : Json)

/-- What a hook does when it is called. -/
inductive HookStep (τ : Type) where
  | order (o : Order τ)
  | consume

/-- A hook, and how often it will still act. -/
structure Hook (τ : Type) where
  topic : Topic
  priority : Json := .int 0
  left : Nat := 1
  /-- What it does when it will act that many times more. -/
  steps : Nat → List (HookStep τ) := fun _ => []

/-- Who listens on the bus of a rehearsal. -/
inductive Listener where
  /-- Writes down every event that is delivered. -/
  | recorder
  | dialogue
  | hook (number : Nat)
  deriving DecidableEq, Repr

/-- What a rehearsal leaves behind. -/
inductive RehearsalMark where
  | call (c : Call)
  | notice (n : Notice)
  | hooked (topic : Topic)
  | ended

/-- The surroundings of a rehearsal. -/
structure Stand (τ : Type) where
  bus : Bus Listener Detail := {}
  hooks : List (Hook τ) := []
  /-- The view, unless calls to it are to be written down. -/
  view : Option View := none
  slots : Slots := .count 3
  /-- Whether the end of a story is noticed. -/
  noticesEnd : Bool := true
  /-- The stories to begin at the end of a story, one after the other. -/
  encores : List Material := []
  marks : List RehearsalMark := []
  log : List Log.Entry := []

/-- Why an order cannot be carried out. -/
inductive OrderError where
  | play (e : Story.PlayError)
  | format (e : Story.FormatError)
  | script (e : Story.ScriptError)
  | fault (e : Fault)
  /-- There is no action with the name. -/
  | noAction (name : String)
  deriving DecidableEq

/-- A dialogue in rehearsal. -/
abbrev Rehearsal (τ : Type) := Dialogue τ Unit (Stand τ)

namespace Stand
variable {τ : Type}

/-- Records a mark. -/
def leave (m : RehearsalMark) (s : Stand τ) : Stand τ := { s with marks := s.marks ++ [m] }

/-- Answers a call. -/
def perform (c : Call) (s : Stand τ) : Attempt (Stand τ) Fault :=
  match s.view with
  | none => (s.leave (.call c), none)
  | some v =>
    if c.isVisual then
      match v.perform c with
      | .ok v => ({ s with view := some v }, none)
      | .error e => (s, some (.misfit e))
    else (s.leave (.call c), none)

/-- The stage of a rehearsal. -/
def stage : Stage (Stand τ) where
  perform := perform
  report e s := { s with log := s.log ++ [e] }
  slots s := s.slots

/-- Subscribes a listener. -/
def subscribe (t : Topic) (priority : Json) (l : Listener) (s : Stand τ) :
    Attempt (Stand τ) Misfit :=
  match s.bus.subscribe t ⟨priority, l, false, false⟩ with
  | .ok bus => ({ s with bus }, none)
  | .error e => (s, some e)

/-- Before everything else. -/
def recorderPriority : Json := .int 1000000000

/-- Surroundings with the recorder and then the hooks subscribed. -/
def open_ (s : Stand τ) : Attempt (Stand τ) Misfit :=
  (Attempt.inTurn (subscribe · recorderPriority .recorder) Topic.all s).andThen
    (Attempt.inTurn (fun (h, i) => subscribe h.topic h.priority (.hook i)) s.hooks.zipIdx)

/-- The priority of a dialogue that listens to the player. -/
def dialoguePriority : Json := .int 10

/-- Begins to listen to the player. -/
def listen (s : Stand τ) : Attempt (Stand τ) Fault :=
  (s.subscribe .actionPressed dialoguePriority .dialogue).mapError Fault.misfit

/-- How often the hooks will still act, all of them together. -/
def vigor (s : Stand τ) : Nat := s.hooks.foldr (fun h rest => h.left + rest) 0

/-- Whether the dialogue listens to the player. -/
def isListening (s : Stand τ) : Bool := s.bus.isSubscribed (fun _ => true) .actionPressed .dialogue

end Stand

namespace Rehearsal
variable {τ : Type}

/-- A way to publish events; it says whether the event was consumed. -/
abbrev Publisher (τ : Type) := Notice → Rehearsal τ → Rehearsal τ × Bool

/-- How a dialogue in rehearsal is wired. -/
def wiring (interval : τ) (sound : Json) (publish : Publisher τ) : Wiring τ (Stand τ) where
  manner := ⟨Stand.stage, interval, sound⟩
  publish n d := (publish n d).1
  listen := Stand.listen
  unlisten s := { s with bus := s.bus.unsubscribe (fun _ => true) .actionPressed .dialogue }
  focusStart s := s

/-- Begins a story. -/
def beginStory [Clock τ] (w : Wiring τ (Stand τ)) (m : Material) (d : Rehearsal τ) :
    Rehearsal τ × Except Story.ScriptError Turn :=
  match m with
  | .content c => let (d, t) := d.begin w c; (d, .ok t)
  | .script (.str text) =>
    let c := Story.compile text
    let d := d.reportAll w.stage c.log
    match c.result with
    | .error e => (d, .error e)
    | .ok g => let (d, t) := d.begin w g.toJson; (d, .ok t)
  | .script _ => (d, .ok (.failed (.misfit .part)))

/-- Takes the turn a command led to: at the end of a story the next one is begun, which may end
at once in turn. At most `fuel` stories are begun. -/
def takeTurn [Clock τ] (w : Wiring τ (Stand τ)) :
    (fuel : Nat) → Rehearsal τ × Turn → Attempt (Rehearsal τ) OrderError
  | _, (d, .done) => (d, none)
  | _, (d, .refused e) => (d, some (.play e))
  | _, (d, .unreadable e) => (d, some (.format e))
  | _, (d, .failed e) => (d, some (.fault e))
  | fuel, (d, .ended) =>
    if d.outside.noticesEnd then
      let d := d.withOutside (Stand.leave .ended)
      match fuel, d.outside.encores with
      | fuel + 1, m :: rest =>
        match beginStory w m (d.withOutside fun s => { s with encores := rest }) with
        | (d, .ok t) => takeTurn w fuel (d, t)
        | (d, .error e) => (d, some (.script e))
      | _, _ => (d, none)
    else (d, none)

/-- What comes of an order. -/
inductive Answer where
  | none
  | truth (b : Bool)
  | failed (e : OrderError)
  deriving DecidableEq

/-- The answer to an order that leads to nothing but what it does. -/
def settled (r : Attempt (Rehearsal τ) OrderError) : Rehearsal τ × Answer :=
  (r.1, r.2.elim .none .failed)

/-- Takes the turn a command led to, with as many stories as there are. -/
def conclude [Clock τ] (w : Wiring τ (Stand τ)) (r : Rehearsal τ × Turn) : Rehearsal τ × Answer :=
  settled (takeTurn w r.1.outside.encores.length r)

/-- The answer to an order that a value does not fit. -/
def unfit (e : Misfit) (d : Rehearsal τ) : Rehearsal τ × Answer := (d, .failed (.fault (.misfit e)))

/-- Moves the focus of the view, if there is one. -/
def moveFocus (delta : Json) (d : Rehearsal τ) : Rehearsal τ × Answer :=
  match d.outside.view with
  | none => (d, .none)
  | some v =>
    match v.moveFocusBy delta with
    | .error e => d.unfit e
    | .ok (v, moved) => (d.withOutside fun s => { s with view := some v }, .truth moved)

/-- Lets time pass, a number of times. -/
def updateTimes [Clock τ] (w : Wiring τ (Stand τ)) (dt : τ) (times : Json) (d : Rehearsal τ) :
    Rehearsal τ × Answer :=
  match times.count with
  | .error e => d.unfit e
  | .ok n => settled ((Attempt.times (Dialogue.update w dt) n.toNat d).mapError OrderError.fault)

/-- Carries out an order. -/
def carryOut [Clock τ] (interval : τ) (sound : Json) (publish : Publisher τ) (o : Order τ)
    (d : Rehearsal τ) : Rehearsal τ × Answer :=
  let w := wiring interval sound publish
  match o with
  | .begin m =>
    match beginStory w m d with
    | (d, .ok t) => conclude w (d, t)
    | (d, .error e) => (d, .failed (.script e))
  | .update dt times => d.updateTimes w dt times
  | .advance => conclude w (d.advance w)
  | .goOn => conclude w (d.continueStory w)
  | .choose index => conclude w (d.choose w index)
  | .act name =>
    match Action.ofName? name with
    | none => (d, .failed (.noAction name))
    | some a => let (d, consumed) := publish (.actionPressed a) d; (d, .truth consumed)
  | .shutdown => (d.shutdown w, .none)
  | .move delta => d.moveFocus delta

/-- Queues an event. -/
def queue : Publisher τ := fun n d =>
  (d.withOutside fun s => { s with bus := s.bus.enqueue n }, false)

/-- Carries out the steps of a hook, up to one that fails. -/
def perform [Clock τ] (interval : τ) (sound : Json) :
    (consumed : Bool) → List (HookStep τ) → Rehearsal τ → Rehearsal τ × Reply
  | consumed, [], d => (d, ⟨consumed, false⟩)
  | _, .consume :: rest, d => perform interval sound true rest d
  | consumed, .order o :: rest, d =>
    match carryOut interval sound queue o d with
    | (d, .failed _) => (d, ⟨consumed, true⟩)
    | (d, _) => perform interval sound consumed rest d

/-- Calls a hook. -/
def callHook [Clock τ] (interval : τ) (sound : Json) (number : Nat) (d : Rehearsal τ) :
    Rehearsal τ × Reply :=
  match d.outside.hooks[number]? with
  | some ⟨topic, priority, left + 1, steps⟩ =>
    perform interval sound false (steps left) <| d.withOutside fun s =>
      { s with hooks := s.hooks.set number ⟨topic, priority, left, steps⟩ }.leave (.hooked topic)
  | _ => (d, {})

/-- The dialogue hears of an action: to confirm is to advance. -/
def hear [Clock τ] (interval : τ) (sound : Json) (n : Notice) (d : Rehearsal τ) :
    Rehearsal τ × Reply :=
  if n.action? = some .confirm then
    match carryOut interval sound queue .advance d with
    | (d, .failed _) => (d, ⟨false, true⟩)
    | (d, _) => (d, {})
  else (d, {})

/-- The rehearsal as the world of its bus. -/
def exchange [Clock τ] (interval : τ) (sound : Json) :
    Exchange (Rehearsal τ) Listener Detail where
  bus d := d.outside.bus
  withBus b d := d.withOutside fun s => { s with bus := b }
  report e d := d.report Stand.stage e
  isLive _ _ := true
  call l n d :=
    match l with
    | .recorder => (d.withOutside (Stand.leave (.notice n)), {})
    | .dialogue => hear interval sound n d
    | .hook i => callHook interval sound i d

/-- How many rounds of events a rehearsal waits for. In a round that brings about another one a hook
has acted, or the dialogue has heard of an action that a hook brought about. -/
def patience (d : Rehearsal τ) : Nat :=
  Exchange.cascadeLimit + d.outside.vigor

/-- Publishes an event from outside. -/
def publish [Clock τ] (interval : τ) (sound : Json) : Publisher τ := fun n d =>
  (exchange interval sound).publishUpTo d.patience n d

/-- Carries out an order from outside. -/
def execute [Clock τ] (interval : τ) (sound : Json) (o : Order τ) (d : Rehearsal τ) :
    Rehearsal τ × Answer :=
  carryOut interval sound (publish interval sound) o d

end Rehearsal
end VisualNovel
