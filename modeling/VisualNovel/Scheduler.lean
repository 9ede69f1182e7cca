import VisualNovel.Attempt
import VisualNovel.Clock
import VisualNovel.Json.Shown
import VisualNovel.Log
/-!
# The scheduler

A scheduler runs tasks in turn on one thread. A task is run when it is started and again whenever
it is due, each time up to the point where it suspends: for a delay, or until the next tick. The
time it was due, not the time it is run, is what its next delay counts from. A delay that is not
positive still waits for the next tick. Tasks that are started during an update wait for the next
one.

What a task does lies in its body `β`, which a host runs in its world `σ`; a body may reach the
scheduler itself, so the world holds it. A body that is being run cannot be run or closed again:
to resume it fails the task, and to cancel it only marks it.

A delay may be no time that can be added to the clock. A task that asks for one when it is started
never comes to live, and its body hangs until it is abandoned; one that asks for it later stays due.
Either way what ran the task breaks off.
-/
namespace VisualNovel

/-- When a body that suspends is to be resumed. -/
inductive Request (τ : Type) where
  | nextTick
  | wait (seconds : τ)
  deriving DecidableEq, Repr

/-- How one run of a body ends. -/
inductive Outcome (τ β : Type) where
  /-- It suspends, with `rest` left to do. -/
  | suspend (request : Request τ) (rest : β)
  | finish
  | fail
  deriving DecidableEq, Repr

/-- Where the body of a task stands. -/
inductive Body (β : Type) where
  | suspended (rest : β)
  | running
  | ended
  deriving DecidableEq, Repr

/-- A task. -/
structure Task (τ β : Type) where
  /-- What messages call it, mostly a text. -/
  name : Json
  body : Body β
  /-- The earliest time of its next run. -/
  wakeTime : τ
  /-- The earliest tick of its next run. -/
  wakeTick : Nat := 0
  /-- It has finished, failed or been cancelled. -/
  done : Bool := false
  cancelled : Bool := false
  deriving DecidableEq

/-- The name a task is known by, and its state, as messages show it. -/
def Task.describe (t : Task τ β) : String :=
  let state := if t.cancelled then "cancelled" else if t.done then "done" else "running"
  "Task(" ++ t.name.shownInside ++ ", " ++ state ++ ")"

/-- The number of a task among those a scheduler was given. -/
abbrev TaskId := Nat

/-- The clock and the tasks of a scheduler. -/
structure Scheduler (τ β : Type) where
  time : τ
  tick : Nat := 0
  /-- Every task that was started, in order. -/
  tasks : List (Task τ β) := []
  /-- The tasks an update looks at, in the order in which they first suspended. -/
  live : List TaskId := []
  deriving DecidableEq

namespace Scheduler

/-- A scheduler without tasks at time zero. -/
def empty [Clock τ] : Scheduler τ β := { time := Clock.origin τ }

/-- The task with a number. -/
def task? (s : Scheduler τ β) (id : TaskId) : Option (Task τ β) := s.tasks[id]?

/-- Whether a task is done. -/
def isDone (s : Scheduler τ β) (id : TaskId) : Bool := (s.task? id).all (·.done)

/-- The tasks that are not done. -/
def active (s : Scheduler τ β) : List (Task τ β) :=
  s.live.filterMap fun id => (s.task? id).filter (!·.done)

/-- Changes one task. -/
def modify (s : Scheduler τ β) (id : TaskId) (f : Task τ β → Task τ β) : Scheduler τ β :=
  { s with tasks := s.tasks.modify id f }

/-- Whether a task may run now. -/
def isDue [Clock τ] (s : Scheduler τ β) (t : Task τ β) : Bool :=
  t.wakeTick ≤ s.tick &&
    (Clock.add s.time (Clock.slack τ)).toOption.any fun latest => Clock.le t.wakeTime latest

end Scheduler

/-- When a body is to be resumed that made a request in a run that was due at `now`. -/
def Request.wakeTime [Clock τ] (now : τ) : Request τ → Except Misfit τ
  | .nextTick => .ok now
  | .wait seconds => Clock.add now seconds

/-- The earliest tick in which a body is to be resumed that made a request in `tick`. -/
def Request.wakeTick [Clock τ] (tick : Nat) : Request τ → Nat
  | .nextTick => tick + 1
  | .wait seconds => if Clock.lt Clock.zero seconds then tick else tick + 1

/-- A task whose body has come to its end. -/
def Task.finish (t : Task τ β) : Task τ β := { t with body := .ended, done := true }

/-- The report of a task that failed. -/
def Task.failure (name : Json) : Log.Entry := Log.error ("Task '" ++ name.shown ++ "' failed")

/-- A world in which a scheduler runs. -/
structure Host (σ τ β : Type) where
  scheduler : σ → Scheduler τ β
  withScheduler : Scheduler τ β → σ → σ
  report : Log.Entry → σ → σ
  /-- What a suspended body does when it is closed. -/
  close : β → σ → σ

namespace Host
variable {σ τ β : Type}

/-- Changes the scheduler of a world. -/
def modify (h : Host σ τ β) (f : Scheduler τ β → Scheduler τ β) (s : σ) : σ :=
  h.withScheduler (f (h.scheduler s)) s

/-- Fails a task, with a report. -/
def fail (h : Host σ τ β) (id : TaskId) (f : Task τ β → Task τ β) (s : σ) : σ :=
  let name := ((h.scheduler s).task? id).elim .null (·.name)
  h.modify (·.modify id f) (h.report (Task.failure name) s)

/-- Suspends a task in a run that was due at `now` in tick `tick`. A task that was cancelled in that
run is not resumed. -/
def suspend [Clock τ] (h : Host σ τ β) (id : TaskId) (now : τ) (tick : Nat) (r : Request τ)
    (rest : β) (s : σ) : Attempt σ Misfit :=
  let s := h.modify (·.modify id fun t => { t with body := .suspended rest }) s
  if (h.scheduler s).isDone id then (s, none)
  else
    match r.wakeTime now with
    | .error e => (s, some e)
    | .ok wakeTime =>
      (h.modify (·.modify id fun t => { t with wakeTime, wakeTick := r.wakeTick tick }) s, none)

/-- Takes note of how a run of a task ended. -/
def settle [Clock τ] (h : Host σ τ β) (id : TaskId) (now : τ) (tick : Nat) (o : Outcome τ β)
    (s : σ) : Attempt σ Misfit :=
  match o with
  | .finish => (h.modify (·.modify id Task.finish) s, none)
  | .fail => (h.fail id Task.finish s, none)
  | .suspend r rest => h.suspend id now tick r rest s

/-- Starts a task and runs it up to its first suspension. -/
def start [Clock τ] (h : Host σ τ β) (name : Json) (run : σ → σ × Outcome τ β) (s : σ) :
    Attempt σ Misfit × TaskId :=
  let sched := h.scheduler s
  let id := sched.tasks.length
  let s := h.modify (fun c => { c with
    tasks := c.tasks ++ [{ name, body := .running, wakeTime := c.time }] }) s
  let (s, o) := run s
  match h.settle id sched.time sched.tick o s with
  | (s, some e) => ((h.modify (·.modify id fun t => { t with done := true }) s, some e), id)
  | (s, none) =>
    if (h.scheduler s).isDone id then ((s, none), id)
    else ((h.modify (fun c => { c with live := c.live ++ [id] }) s, none), id)

/-- Closes the body of a task that was started in vain. -/
def abandon (h : Host σ τ β) (id : TaskId) (s : σ) : σ :=
  match ((h.scheduler s).task? id).map Task.body with
  | some (Body.suspended rest) => h.close rest (h.modify (·.modify id Task.finish) s)
  | _ => s

/-- Runs a task once more. -/
def resume [Clock τ] (h : Host σ τ β) (run : β → σ → σ × Outcome τ β) (id : TaskId) (s : σ) :
    Attempt σ Misfit :=
  let sched := h.scheduler s
  match sched.task? id with
  | none => (s, none)
  | some t =>
    match t.body with
    | .running => (h.fail id (fun t => { t with done := true }) s, none)
    | .ended => (h.modify (·.modify id Task.finish) s, none)
    | .suspended rest =>
      let s := h.modify (·.modify id fun t => { t with body := .running }) s
      let (s, o) := run rest s
      h.settle id t.wakeTime sched.tick o s

/-- Runs a task as long as it is due. -/
def runDue [Clock τ] (h : Host σ τ β) (run : β → σ → σ × Outcome τ β) (id : TaskId) :
    (fuel : Nat) → σ → Attempt σ Misfit
  | 0, s => (s, none)
  | fuel + 1, s =>
    let sched := h.scheduler s
    match sched.task? id with
    | none => (s, none)
    | some t =>
      if !t.done && sched.isDue t then (h.resume run id s).andThen (runDue h run id fuel)
      else (s, none)

/-- How often a task can be run at most, if `rounds` bounds it for a body. -/
def roundsLeft (h : Host σ τ β) (rounds : β → Nat) (id : TaskId) (s : σ) : Nat :=
  match (h.scheduler s).task? id with
  | some ⟨_, .suspended rest, _, _, _, _⟩ => rounds rest
  | _ => 1

/-- Forgets the live tasks that are done. -/
def sweep (h : Host σ τ β) (s : σ) : σ :=
  h.modify (fun c => { c with live := c.live.filter fun id => !c.isDone id }) s

/-- Advances the clock and runs every task that is due. -/
def update [Clock τ] (h : Host σ τ β) (run : β → σ → σ × Outcome τ β) (rounds : β → Nat) (dt : τ)
    (s : σ) : Attempt σ Misfit :=
  match Clock.add (h.scheduler s).time dt with
  | .error e => (s, some e)
  | .ok time =>
    let s := h.modify (fun c => { c with time, tick := c.tick + 1 }) s
    let serve (id : TaskId) (s : σ) : Attempt σ Misfit :=
      h.runDue run id (h.roundsLeft rounds id s) s
    (Attempt.inTurn serve (h.scheduler s).live s).andThen fun s => (h.sweep s, none)

/-- Cancels a task; false if it is being run, so that its body cannot be closed. -/
def cancel (h : Host σ τ β) (id : TaskId) (s : σ) : σ × Bool :=
  match (h.scheduler s).task? id with
  | none => (s, true)
  | some t =>
    if t.done then (s, true)
    else
      let mark (t : Task τ β) : Task τ β := { t with cancelled := true, done := true }
      match t.body with
      | .suspended rest =>
        (h.close rest (h.modify (·.modify id fun t => { mark t with body := .ended }) s), true)
      | .running => (h.modify (·.modify id mark) s, false)
      | .ended => (h.modify (·.modify id mark) s, true)

/-- Cancels tasks in turn, up to one that is being run. -/
def cancelEach (h : Host σ τ β) : List TaskId → σ → σ × Bool
  | [], s => (s, true)
  | id :: ids, s =>
    match h.cancel id s with
    | (s, true) => cancelEach h ids s
    | (s, false) => (s, false)

/-- Cancels every live task. -/
def cancelAll (h : Host σ τ β) (s : σ) : σ × Bool :=
  match h.cancelEach (h.scheduler s).live s with
  | (s, true) => (h.modify (fun c => { c with live := [] }) s, true)
  | (s, false) => (s, false)

end Host
end VisualNovel
