import VisualNovel.Bus
import VisualNovel.Json.Value
/-!
# Handler scripts

Handlers as data: each has a name and a list of instructions that subscribe, publish, clear, consume
the event, read its data or fail. An instruction may be limited to the first calls of its handler.
A handler can be dropped; then its weak subscriptions die, unless the bus keeps it alive, and it
cannot be named any more.
-/
namespace VisualNovel

/-- Something done to a bus. -/
inductive BusCommand where
  | subscribe (handler : String) (topic : Topic) (priority : Json) (oneShot weak : Bool)
  | unsubscribe (handler : String) (topic : Topic)
  | isSubscribed (handler : String) (topic : Topic)
  /-- Publish an event with what are to be the members of its data. -/
  | publish (topic : Topic) (data : Json)
  | clear (topic : Option Topic)
  /-- Anything with a topic that is not there. -/
  | misnamed (topic : String)

/-- An instruction of a handler. -/
inductive HandlerStep where
  | command (c : BusCommand)
  | consume
  | fail
  /-- Record a member of the event's data, or a value if it is not there. -/
  | get (key default : Json)
  /-- Record a member of the event's data, which must be there. -/
  | item (key : Json)

/-- An instruction and the number of calls it is limited to. -/
structure LimitedStep where
  step : HandlerStep
  limit : Option Nat

/-- What handlers leave behind. -/
inductive HandlerMark where
  | called (handler : String) (event : Event (List (String × Json)))
  | got (value : Json)

/-- A bus with scripted handlers. -/
structure Forum where
  bus : Bus String (List (String × Json)) := {}
  scripts : List (String × List LimitedStep) := []
  /-- How often each handler was called. -/
  calls : List (String × Nat) := []
  dropped : List String := []
  marks : List HandlerMark := []
  log : List Log.Entry := []

namespace Forum

/-- Records a mark. -/
def leave (m : HandlerMark) (f : Forum) : Forum := { f with marks := f.marks ++ [m] }

/-- Whether a handler can be named. -/
def known (f : Forum) (h : String) : Bool := (f.scripts.lookup h).isSome && !f.dropped.contains h

/-- Whether a handler is there for weak subscriptions. -/
def isLive (h : String) (f : Forum) : Bool := !f.dropped.contains h || f.bus.holds h

/-- The result of a command. -/
inductive Answer where
  | none
  | truth (b : Bool)
  | consumed (b : Bool)
  /-- There is no such handler, or no such topic. -/
  | unknown (name : String)
  | failed (e : Misfit)
  deriving DecidableEq, Repr

/-- The names that no member of an event's data can have. -/
def reserved : List String := ["self", "event_type"]

/-- The members of an event's data, which must be an object. -/
def dataOf (j : Json) : Except Misfit (List (String × Json)) :=
  match j with
  | .obj members => if members.any (reserved.contains ·.1) then .error .kind else .ok members
  | _ => .error .kind

/-- Carries out a command, with a way to publish. -/
def carryOut (publish : Event (List (String × Json)) → Forum → Forum × Bool) (c : BusCommand)
    (f : Forum) : Forum × Answer :=
  match c with
  | .subscribe h t priority oneShot weak =>
    if f.known h then
      match f.bus.subscribe t ⟨priority, h, oneShot, weak⟩ with
      | .ok bus => ({ f with bus }, .none)
      | .error e => (f, .failed e)
    else (f, .unknown h)
  | .unsubscribe h t =>
    if f.known h then ({ f with bus := f.bus.unsubscribe (f.isLive ·) t h }, .none)
    else (f, .unknown h)
  | .isSubscribed h t =>
    if f.known h then (f, .truth (f.bus.isSubscribed (f.isLive ·) t h)) else (f, .unknown h)
  | .publish t data =>
    match dataOf data with
    | .error e => (f, .failed e)
    | .ok data =>
      let (f, c) := publish ⟨t, data⟩ f
      (f, .consumed c)
  | .clear t => ({ f with bus := f.bus.clear t }, .none)
  | .misnamed t => (f, .unknown t)

/-- Queues an event. -/
def queue (e : Event (List (String × Json))) (f : Forum) : Forum × Bool :=
  ({ f with bus := f.bus.enqueue e }, false)

/-- The member of an event's data under a key; only a text is the name of one. -/
def member? (e : Event (List (String × Json))) (key : Json) : Option Json :=
  key.str?.bind fun name => e.data.lookup name

/-- Carries out an instruction for an event; the result has whether the event is consumed by now and
whether the instruction failed. -/
def perform (e : Event (List (String × Json))) (consumed : Bool) (s : HandlerStep) (f : Forum) :
    Forum × Reply :=
  match s with
  | .command c =>
    match f.carryOut queue c with
    | (f, .unknown _) | (f, .failed _) => (f, ⟨consumed, true⟩)
    | (f, _) => (f, ⟨consumed, false⟩)
  | .consume => (f, ⟨true, false⟩)
  | .fail => (f, ⟨consumed, true⟩)
  | .get key default =>
    if key.isKey then (f.leave (.got ((member? e key).getD default)), ⟨consumed, false⟩)
    else (f, ⟨consumed, true⟩)
  | .item key =>
    match member? e key with
    | some v => (f.leave (.got v), ⟨consumed, false⟩)
    | none => (f, ⟨consumed, true⟩)

/-- Carries out the instructions that are not used up by the handler's `count`-th call. -/
def performAll (e : Event (List (String × Json))) (count : Nat) :
    (consumed : Bool) → List LimitedStep → Forum → Forum × Reply
  | consumed, [], f => (f, ⟨consumed, false⟩)
  | consumed, s :: rest, f =>
    if s.limit.all (count ≤ ·) then
      match perform e consumed s.step f with
      | (f, ⟨consumed, true⟩) => (f, ⟨consumed, true⟩)
      | (f, ⟨consumed, false⟩) => performAll e count consumed rest f
    else performAll e count consumed rest f

/-- Calls a handler. -/
def call (h : String) (e : Event (List (String × Json))) (f : Forum) : Forum × Reply :=
  let count := (f.calls.lookup h).getD 0 + 1
  let f := { f with calls := Assoc.upsert h count f.calls }.leave (.called h e)
  performAll e count false ((f.scripts.lookup h).getD []) f

/-- The forum as the world of its bus. -/
def exchange : Exchange Forum String (List (String × Json)) where
  bus f := f.bus
  withBus b f := { f with bus := b }
  report e f := { f with log := f.log ++ [e] }
  isLive := isLive
  call := call

/-- Carries out a command from outside. -/
def execute (c : BusCommand) (f : Forum) : Forum × Answer := f.carryOut exchange.publish c

/-- Drops a handler. -/
def drop (h : String) (f : Forum) : Forum := { f with dropped := h :: f.dropped }

end Forum
end VisualNovel
