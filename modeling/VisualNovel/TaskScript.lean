import VisualNovel.Assoc
import VisualNovel.Json.Value
import VisualNovel.Scheduler
/-!
# Task scripts

Task bodies as data: a list of instructions that mark a value, suspend, fail, repeat a list of
instructions, and start and cancel tasks that are known by a key. A key may be any value, and stands
for the task that was last started under it. Whenever a body comes to its end, fails or is closed
while suspended, that is recorded.
-/
namespace VisualNovel

/-- An instruction of a task body. -/
inductive Instruction (τ : Type) where
  /-- Record a value. -/
  | mark (value : Json)
  /-- Suspend for a delay. -/
  | wait (seconds : τ)
  /-- Suspend until the next tick. -/
  | tick
  | fail
  | repeatTimes (n : Nat) (body : List (Instruction τ))
  /-- Do the rest of a list, from which `leave` comes back here. -/
  | block (body : List (Instruction τ))
  | start (key name : Json) (body : List (Instruction τ))
  /-- Cancel a task; one that is being run makes this fail. -/
  | cancel (key : Json)
  /-- Cancel a task; one that is being run is recorded. -/
  | tryCancel (key : Json)
  /-- Leave the innermost list. -/
  | leave
  deriving Inhabited

/-- What a task body leaves behind. -/
inductive TaskMark where
  | mark (value : Json)
  | noTask (key : Json)
  | cancelFailed (key : Json)
  | closed

/-- A body: the instructions left to do. -/
abbrev Instructions (τ : Type) := List (Instruction τ)

/-- A scheduler of scripted tasks, the keys of its tasks, and what they left behind. -/
structure Workshop (τ : Type) where
  scheduler : Scheduler τ (Instructions τ)
  keys : List (Json × TaskId) := []
  marks : List TaskMark := []
  log : List Log.Entry := []

/-- How far a list of instructions came. -/
inductive Progress (τ : Type) where
  | through
  | left
  | suspended (request : Request τ) (rest : Instructions τ)
  /-- An instruction failed; maybe a task that was started in vain is left hanging. -/
  | failed (hanging : Option TaskId)

namespace Workshop
variable {τ : Type}

/-- Records a mark. -/
def leave (m : TaskMark) (w : Workshop τ) : Workshop τ := { w with marks := w.marks ++ [m] }

/-- A workshop without tasks. -/
def empty [Clock τ] : Workshop τ := { scheduler := .empty }

/-- The workshop as the world of its scheduler. -/
def host : Host (Workshop τ) τ (Instructions τ) where
  scheduler w := w.scheduler
  withScheduler c w := { w with scheduler := c }
  report e w := { w with log := w.log ++ [e] }
  close _ w := w.leave .closed

/-- The end of a run of a body. -/
def conclude (r : Workshop τ × Progress τ) : Workshop τ × Outcome τ (Instructions τ) :=
  match r with
  | (w, .through) | (w, .left) => (w.leave .closed, .finish)
  | (w, .failed none) => (w.leave .closed, .fail)
  | (w, .failed (some id)) => (host.abandon id (w.leave .closed), .fail)
  | (w, .suspended r rest) => (w, .suspend r rest)

/-- Cancels the task under a key; false if it is being run. -/
def cancelKey (key : Json) (w : Workshop τ) : Workshop τ × Bool :=
  match w.keys.lookup key with
  | none => (w.leave (.noTask key), true)
  | some id => host.cancel id w

/-- The name of a task that was given none. -/
def usualName : Json := .str "script_task"

/-- Starts a task whose first run is given, and keeps it under a key. -/
def startKey [Clock τ] (key name : Json)
    (run : Workshop τ → Workshop τ × Outcome τ (Instructions τ)) (w : Workshop τ) :
    Attempt (Workshop τ) Misfit × TaskId :=
  let (r, id) := host.start (if name.isTruthy then name else usualName) run w
  (r.andThen fun w => ({ w with keys := Assoc.upsert key id w.keys }, none), id)

/-- Repeats a list of instructions. -/
def repeatBody (body : Instructions τ) (run : Workshop τ → Workshop τ × Progress τ) :
    Nat → Workshop τ → Workshop τ × Progress τ
  | 0, w => (w, .through)
  | n + 1, w =>
    match run w with
    | (w, .through) | (w, .left) => repeatBody body run n w
    | (w, .failed h) => (w, .failed h)
    | (w, .suspended r rest) => (w, .suspended r [.block rest, .repeatTimes n body])

mutual

/-- Carries out an instruction. -/
def perform [Clock τ] : Instruction τ → Workshop τ → Workshop τ × Progress τ
  | .mark v, w => (w.leave (.mark v), .through)
  | .wait seconds, w => (w, .suspended (.wait seconds) [])
  | .tick, w => (w, .suspended .nextTick [])
  | .fail, w => (w, .failed none)
  | .repeatTimes n body, w => repeatBody body (fun w => performAll body w) n w
  | .block body, w =>
    match performAll body w with
    | (w, .through) | (w, .left) => (w, .through)
    | (w, .failed h) => (w, .failed h)
    | (w, .suspended r rest) => (w, .suspended r [.block rest])
  | .start key name body, w =>
    match startKey key name (fun w => conclude (performAll body w)) w with
    | ((w, none), _) => (w, .through)
    | ((w, some _), id) => (w, .failed (some id))
  | .cancel key, w =>
    match cancelKey key w with
    | (w, true) => (w, .through)
    | (w, false) => (w, .failed none)
  | .tryCancel key, w =>
    match cancelKey key w with
    | (w, true) => (w, .through)
    | (w, false) => (w.leave (.cancelFailed key), .through)
  | .leave, w => (w, .left)

/-- Carries out instructions in order. -/
def performAll [Clock τ] : Instructions τ → Workshop τ → Workshop τ × Progress τ
  | [], w => (w, .through)
  | i :: rest, w =>
    match perform i w with
    | (w, .through) => performAll rest w
    | (w, .left) => (w, .left)
    | (w, .failed h) => (w, .failed h)
    | (w, .suspended r left) => (w, .suspended r (left ++ rest))

end

mutual

/-- How often an instruction suspends at most. -/
def weight : Instruction τ → Nat
  | .repeatTimes n body => n * weightAll body
  | .block body => weightAll body
  | .wait _ | .tick => 1
  | _ => 0

/-- How often instructions suspend at most. -/
def weightAll : Instructions τ → Nat
  | [] => 0
  | i :: rest => weight i + weightAll rest

end

/-- Runs a body. -/
def run [Clock τ] (body : Instructions τ) (w : Workshop τ) :
    Workshop τ × Outcome τ (Instructions τ) :=
  conclude (performAll body w)

/-- Starts a scripted task under a key; one that is started in vain is abandoned. -/
def start [Clock τ] (key name : Json) (body : Instructions τ) (w : Workshop τ) :
    Attempt (Workshop τ) Misfit × TaskId :=
  match startKey key name (run body) w with
  | ((w, some e), id) => ((host.abandon id w, some e), id)
  | r => r

/-- Advances the clock and runs every task that is due. -/
def update [Clock τ] (dt : τ) (w : Workshop τ) : Attempt (Workshop τ) Misfit :=
  host.update run (fun body => weightAll body + 1) dt w

end Workshop
end VisualNovel
