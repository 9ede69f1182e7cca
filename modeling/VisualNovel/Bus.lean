import VisualNovel.Assoc
import VisualNovel.Json.Order
import VisualNovel.Log
import VisualNovel.Topic
/-!
# The event bus

Handlers subscribe to topics, with a priority. An event is delivered to the handlers that are
subscribed to its topic when its delivery begins, those of higher priority first and those of equal
priority in the order of their subscription, up to the first that consumes it. A handler that fails
is reported and the next one is called.

Events that are published while an event is being delivered wait in a queue; deliveries never nest.
A subscription may be for one event only, and it may be weak: then it does not keep its handler
alive. A delivery keeps the handlers alive that the entries it began with keep alive, and the one it
came to last, until the events it brought about are delivered as well. After a delivery the entries
that equal a one-shot or dead entry met in it are removed.

Priorities may be any values. It is found out only when an entry is compared with another whether
its priority compares at all.
-/
namespace VisualNovel

/-- An event. -/
structure Event (π : Type) where
  topic : Topic
  data : π
  deriving DecidableEq, Repr

/-- A subscription. -/
structure Entry (κ : Type) where
  priority : Json
  handler : κ
  oneShot : Bool
  weak : Bool
  deriving DecidableEq

/-- The subscriptions by topic, the events that wait, and whether an event is being delivered. -/
structure Bus (κ π : Type) where
  tables : List (Topic × List (Entry κ)) := []
  queue : List (Event π) := []
  delivering : Bool := false
  /-- The handlers that the deliveries under way keep alive. -/
  held : List κ := []
  /-- The handler that the delivery under way came to last, unless it was dead. -/
  serving : Option κ := none
  deriving DecidableEq

/-- Whether a priority is higher than another. -/
def outranks (p q : Json) : Except Misfit Bool := q.less p

/-- Whether two entries are equal. -/
def Entry.same [DecidableEq κ] (a b : Entry κ) : Bool :=
  a.priority.same b.priority && a.handler = b.handler && a.oneShot = b.oneShot &&
    a.weak = b.weak

/-- Puts an entry in front of the first one of lower priority. -/
def insertEntry (e : Entry κ) : List (Entry κ) → Except Misfit (List (Entry κ))
  | [] => .ok [e]
  | x :: xs => do
    if ← outranks e.priority x.priority then .ok (e :: x :: xs)
    else return x :: (← insertEntry e xs)

namespace Bus
variable {κ π : Type}

/-- The subscriptions to a topic, in the order in which they are served. -/
def table (b : Bus κ π) (t : Topic) : List (Entry κ) := (b.tables.lookup t).getD []

/-- Replaces the subscriptions to a topic. -/
def setTable (b : Bus κ π) (t : Topic) (es : List (Entry κ)) : Bus κ π :=
  { b with tables := Assoc.upsert t es b.tables }

/-- Subscribes a handler. -/
def subscribe (b : Bus κ π) (t : Topic) (e : Entry κ) : Except Misfit (Bus κ π) :=
  (insertEntry e (b.table t)).map (b.setTable t)

/-- Removes the subscriptions of a handler; a weak one that is dead is nobody's. -/
def unsubscribe [DecidableEq κ] (live : κ → Bool) (t : Topic) (k : κ) (b : Bus κ π) : Bus κ π :=
  b.setTable t ((b.table t).filter fun e => !(e.handler = k && (!e.weak || live e.handler)))

/-- Whether a handler is subscribed. -/
def isSubscribed [DecidableEq κ] (live : κ → Bool) (t : Topic) (k : κ) (b : Bus κ π) : Bool :=
  (b.table t).any fun e => e.handler = k && (!e.weak || live e.handler)

/-- Removes all subscriptions, to one topic or to all. -/
def clear (b : Bus κ π) : Option Topic → Bus κ π
  | none => { b with tables := [] }
  | some t => { b with tables := Assoc.erase t b.tables }

/-- Whether the bus itself keeps a handler alive. -/
def holds [DecidableEq κ] (b : Bus κ π) (k : κ) : Bool :=
  k ∈ b.held || b.serving = some k ||
    b.tables.any fun (_, es) => es.any fun e => e.handler = k && !e.weak

/-- Begins a delivery that serves entries. -/
def begin (es : List (Entry κ)) (b : Bus κ π) : Bus κ π :=
  { b with
    delivering := true
    held := b.held ++ b.serving.toList ++ (es.filter (!·.weak)).map (·.handler)
    serving := none }

/-- Lets go of the handlers that deliveries kept alive. -/
def rest (b : Bus κ π) : Bus κ π := { b with held := [], serving := none }

/-- Queues an event. -/
def enqueue (b : Bus κ π) (e : Event π) : Bus κ π := { b with queue := b.queue ++ [e] }

end Bus

/-- What a handler leaves behind: whether the event is consumed, and whether the handler failed. -/
structure Reply where
  consumed : Bool := false
  failed : Bool := false
  deriving DecidableEq, Repr

/-- A world in which a bus carries events to handlers. -/
structure Exchange (σ κ π : Type) where
  bus : σ → Bus κ π
  withBus : Bus κ π → σ → σ
  report : Log.Entry → σ → σ
  /-- Whether a handler is still there for weak subscriptions. -/
  isLive : κ → σ → Bool
  /-- Calls a handler; what it publishes is queued. -/
  call : κ → Event π → σ → σ × Reply

/-- The report of a handler that failed. -/
def Topic.failure (t : Topic) : Log.Entry := Log.error ("Error in event handler for " ++ t.name)

namespace Exchange
variable {σ κ π : Type}

/-- Changes the bus of a world. -/
def modify (x : Exchange σ κ π) (f : Bus κ π → Bus κ π) (s : σ) : σ := x.withBus (f (x.bus s)) s

/-- Calls a handler and reports it if it fails; says whether the event is consumed. -/
def invoke (x : Exchange σ κ π) (e : Event π) (k : κ) (s : σ) : σ × Bool :=
  let (s, r) := x.call k e s
  (if r.failed then x.report e.topic.failure s else s, r.consumed)

/-- Serves the entries of a delivery in order. The result has the entries that are spent and
whether the event was consumed. -/
def serve (x : Exchange σ κ π) (e : Event π) : List (Entry κ) → σ → σ × List (Entry κ) × Bool
  | [], s => (s, [], false)
  | entry :: rest, s =>
    if entry.weak && !x.isLive entry.handler s then
      let s := x.modify (fun b => { b with serving := none }) s
      let (s, spent, consumed) := serve x e rest s
      (s, entry :: spent, consumed)
    else
      let s := x.modify (fun b => { b with serving := some entry.handler }) s
      let (s, consumed) := x.invoke e entry.handler s
      let used := if entry.oneShot then [entry] else []
      if consumed then (s, used, true)
      else
        let (s, spent, consumed) := serve x e rest s
        (s, used ++ spent, consumed)

/-- Delivers an event; says whether it was consumed. -/
def deliver [DecidableEq κ] (x : Exchange σ κ π) (e : Event π) (s : σ) : σ × Bool :=
  let entries := (x.bus s).table e.topic
  let s := x.modify (·.begin entries) s
  let (s, spent, consumed) := x.serve e entries s
  let left (b : Bus κ π) : List (Entry κ) :=
    (b.table e.topic).filter fun entry => !spent.any entry.same
  let s := x.modify (fun b => { b.setTable e.topic (left b) with delivering := false }) s
  (s, consumed)

/-- Delivers the first `count` of the events that wait. -/
def drain [DecidableEq κ] (x : Exchange σ κ π) : (count : Nat) → σ → σ
  | 0, s => s
  | count + 1, s =>
    match (x.bus s).queue with
    | [] => s
    | e :: rest => drain x count (x.deliver e (x.modify (fun b => { b with queue := rest }) s)).1

/-- Delivers the events that wait, and then those that came to wait in the meantime, and so on for
up to `rounds` rounds. -/
def exhaust [DecidableEq κ] (x : Exchange σ κ π) : (rounds : Nat) → σ → σ
  | 0, s => s
  | rounds + 1, s =>
    match (x.bus s).queue with
    | [] => s
    | e :: rest => exhaust x rounds (x.drain (e :: rest).length s)

/-- Publishes an event: it is delivered at once and what it brings about after it, in up to `rounds`
rounds; while another one is being delivered it is queued. Says whether it was consumed. -/
def publishUpTo [DecidableEq κ] (x : Exchange σ κ π) (rounds : Nat) (e : Event π) (s : σ) :
    σ × Bool :=
  if (x.bus s).delivering then (x.modify (·.enqueue e) s, false)
  else
    let (s, consumed) := x.deliver e s
    (x.modify Bus.rest (x.exhaust rounds s), consumed)

/-- More rounds than any cascade that ends takes in practice. -/
def cascadeLimit : Nat := 10000

/-- Publishes an event. -/
def publish [DecidableEq κ] (x : Exchange σ κ π) (e : Event π) (s : σ) : σ × Bool :=
  x.publishUpTo cascadeLimit e s

end Exchange
end VisualNovel
