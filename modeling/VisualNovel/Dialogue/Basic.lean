import VisualNovel.Dialogue.Session
import VisualNovel.Notice
import VisualNovel.Scheduler
import VisualNovel.Story.Player
/-!
# The state of a dialogue

A dialogue has a session, a story and its own tasks; all else lies outside, in surroundings `ω` of
which it knows a stage only. A task reveals a line, or hands the focus to the first choice or to the
start button. What a task that reveals a line has to do when the line is complete is told by a value
of type `α`.
-/
namespace VisualNovel

/-- What a suspended task of a dialogue has left to do. -/
inductive Activity (α : Type) where
  /-- Reveal the rest of a line. -/
  | reveal (text : String) (after : α)
  /-- Focus the first choice. -/
  | focusChoice
  /-- Focus the start button. -/
  | focusStart
  deriving DecidableEq, Repr

/-- How often a task can be run at most. -/
def Activity.rounds : Activity α → Nat
  | reveal text _ => text.length + 2
  | focusChoice | focusStart => 1

/-- A dialogue and its surroundings. -/
structure Dialogue (τ α ω : Type) where
  session : Session := {}
  story : Option Story.Player := none
  scheduler : Scheduler τ (Activity α)
  /-- The task that reveals the line. -/
  reveal : Option TaskId := none
  /-- The task that focuses the first choice. -/
  focus : Option TaskId := none
  outside : ω

namespace Dialogue
variable {τ α ω : Type}

/-- A dialogue that has not begun. -/
def start [Clock τ] (outside : ω) : Dialogue τ α ω := { scheduler := .empty, outside }

/-- Changes the session. -/
def withSession (f : Session → Session) (d : Dialogue τ α ω) : Dialogue τ α ω :=
  { d with session := f d.session }

/-- Changes the surroundings. -/
def withOutside (f : ω → ω) (d : Dialogue τ α ω) : Dialogue τ α ω :=
  { d with outside := f d.outside }

/-- Does something in the surroundings, in which they may break off. -/
def attempt (f : ω → Attempt ω Fault) (d : Dialogue τ α ω) : Attempt (Dialogue τ α ω) Fault :=
  let (outside, e) := f d.outside
  ({ d with outside }, e)

/-- Makes a call. -/
def perform (st : Stage ω) (c : Call) (d : Dialogue τ α ω) : Attempt (Dialogue τ α ω) Fault :=
  d.attempt (st.perform c)

/-- Makes a report. -/
def report (st : Stage ω) (e : Log.Entry) (d : Dialogue τ α ω) : Dialogue τ α ω :=
  d.withOutside (st.report e)

/-- Makes reports in order. -/
def reportAll (st : Stage ω) (es : List Log.Entry) (d : Dialogue τ α ω) : Dialogue τ α ω :=
  es.foldl (fun d e => d.report st e) d

/-- The dialogue as the world of its scheduler; nothing happens when a suspended task is closed. -/
def host (st : Stage ω) : Host (Dialogue τ α ω) τ (Activity α) where
  scheduler d := d.scheduler
  withScheduler c d := { d with scheduler := c }
  report e d := d.report st e
  close _ d := d

/-- The names of the tasks that are not done. -/
def taskNames (d : Dialogue τ α ω) : List Json := d.scheduler.active.map (·.name)

end Dialogue
end VisualNovel
