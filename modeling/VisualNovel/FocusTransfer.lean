import VisualNovel.Focus
import VisualNovel.Scheduler
/-!
# Handing the focus over

To hand the focus to a target is a task: it takes the focus away, waits for the next tick, and then
gives it to the target, so that what had the focus never acts on what happens in between.
-/
namespace VisualNovel

/-- A focus, the tasks that hand it over, and the changes so far. The body of a task is the target
it waits to give the focus to. -/
structure FocusRoom (τ : Type) where
  focus : Focus := {}
  scheduler : Scheduler τ (Option Target)
  changes : List FocusChange := []
  log : List Log.Entry := []

namespace FocusRoom
variable {τ : Type}

/-- Nothing has the focus. -/
def empty [Clock τ] : FocusRoom τ := { scheduler := .empty }

/-- Takes note of a change of the focus; says whether there was one. -/
def accept (w : FocusRoom τ) (r : Focus × Option FocusChange) : FocusRoom τ × Bool :=
  ({ w with focus := r.1, changes := w.changes ++ r.2.toList }, r.2.isSome)

/-- Gives a target the focus. -/
def set (w : FocusRoom τ) (t : Option Target) : FocusRoom τ × Bool := w.accept (w.focus.set t)

/-- Moves the focus through the order. -/
def navigate (w : FocusRoom τ) (delta : Json) : Except Misfit (FocusRoom τ × Bool) :=
  (w.focus.navigateBy delta).map w.accept

/-- Sets the order. -/
def setOrder (w : FocusRoom τ) (order : List (Option Target)) : FocusRoom τ :=
  { w with focus := { w.focus with order } }

/-- The room as the world of its scheduler. -/
def host : Host (FocusRoom τ) τ (Option Target) where
  scheduler w := w.scheduler
  withScheduler c w := { w with scheduler := c }
  report e w := { w with log := w.log ++ [e] }
  close _ w := w

/-- Starts to hand the focus over to a target. -/
def transfer [Clock τ] (w : FocusRoom τ) (t : Option Target) :
    Attempt (FocusRoom τ) Misfit × TaskId :=
  host.start (.str "transfer_focus") (fun w => ((w.set none).1, .suspend .nextTick t)) w

/-- Advances the clock. -/
def update [Clock τ] (w : FocusRoom τ) (dt : τ) : Attempt (FocusRoom τ) Misfit :=
  host.update (fun t w => ((w.set t).1, .finish)) (fun _ => 1) dt w

end FocusRoom
end VisualNovel
