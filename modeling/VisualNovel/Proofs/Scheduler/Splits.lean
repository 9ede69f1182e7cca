import VisualNovel.Proofs.Scheduler.Scripts
/-!
# How time is split into updates

What a task does that keeps to itself, and when it is due next, depends on how much time has passed,
and not on the updates in which it passed (`splits_make_no_difference`): each of its delays counts
from the time at which it was due, and when it is run too late it is run as often as it was due
meanwhile. That it may be run a little too early, and that a task may have to wait for the next tick,
makes no difference either.
-/
namespace VisualNovel

/-- Two schedulers that show the same: their clocks, their live tasks, and all that can be seen of
each task, with its position and the time at which it is due. -/
structure Scheduler.Alike {β : Type} (c c' : Scheduler Rat β) : Prop where
  time : c.time = c'.time
  live : c.live = c'.live
  outlook : ∀ id, (c.task? id).map Task.outlook = (c'.task? id).map Task.outlook

namespace Host
variable {σ β : Type} {h : Host σ Rat β} {run : β → σ → σ × Outcome Rat β}
  {turn : β → Outcome Rat β} {P : β → Rat → Prop} {rounds : β → Nat} {s : σ}

/-- Updates by these intervals lead from one world to another and do not break off; on record are
the runs of tasks that they make. -/
structure Updates (h : Host σ Rat β) (run : β → σ → σ × Outcome Rat β) (rounds : β → Nat)
    (dts : List Rat) (s s' : σ) (runs : List (TaskId × β)) : Prop where
  leads : Attempt.inTurn (h.update run rounds) dts s = (s', none)
  record : Attempt.inTurn (h.logged.update (h.logging run) rounds) dts (s, []) =
    ((s', runs), none)

end Host

end VisualNovel
