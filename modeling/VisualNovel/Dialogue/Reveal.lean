import VisualNovel.Dialogue.Basic
/-!
# Revealing a line

A line is revealed by a task, one character at a time with a sound each, and a delay after each
character, the last one included. When a skip is asked for, the next run shows the rest of the line
at once and without a sound.
-/
namespace VisualNovel

/-- How lines are revealed: the stage, the delay after a character, and what names the sound of a
character. -/
structure Manner (τ ω : Type) where
  stage : Stage ω
  interval : τ
  sound : Json

namespace Dialogue
variable {τ α ω : Type}

/-- Cancels the task that reveals the line, if there is one. -/
def cancelReveal (st : Stage ω) (d : Dialogue τ α ω) : Dialogue τ α ω :=
  match d.reveal with
  | none => d
  | some id => { ((host st).cancel id d).1 with reveal := none }

/-- Shows one character more. -/
def revealNext (m : Manner τ ω) (d : Dialogue τ α ω) : Attempt (Dialogue τ α ω) Fault :=
  let d := d.withSession fun s => { s with revealed := s.revealed + 1 }
  (d.perform m.stage (.visible d.session.revealed)).andThen fun d =>
    d.perform m.stage (.play m.sound)

/-- Shows the rest of the line, if some is left. -/
def revealRest (m : Manner τ ω) (total : Nat) (d : Dialogue τ α ω) :
    Attempt (Dialogue τ α ω) Fault :=
  if d.session.revealed < total then
    (d.withSession fun s => { s with revealed := total, skip := false }).perform m.stage
      (.visible total)
  else (d, none)

/-- Ends the reveal of a line; a reveal that is started from now on is another one. -/
def endReveal (m : Manner τ ω) (total : Nat) (d : Dialogue τ α ω) : Dialogue τ α ω :=
  let d := d.withSession fun s => { s with skip := false, revealing := false }
  { d.report m.stage (Log.debug ("Revealed line (" ++ toString total ++ " chars)")) with
    reveal := none }

/-- How a run of a task ends that goes on with `next` unless it breaks off. -/
def runTo (next : Outcome τ β) (r : Attempt σ Fault) : σ × Outcome τ β :=
  match r with
  | (s, none) => (s, next)
  | (s, some _) => (s, .fail)

theorem runTo_fst {β σ : Type} (next : Outcome τ β) (r : Attempt σ Fault) :
    (runTo next r).1 = r.1 := by
  obtain ⟨s, e⟩ := r
  cases e <;> rfl

/-- One run of the task that reveals a line. -/
def runReveal (m : Manner τ ω) (text : String) (after : α)
    (complete : Dialogue τ α ω → Attempt (Dialogue τ α ω) Fault) (d : Dialogue τ α ω) :
    Dialogue τ α ω × Outcome τ (Activity α) :=
  let total := text.length
  if d.session.revealed < total ∧ d.session.skip = false then
    runTo (.suspend (.wait m.interval) (.reveal text after)) (d.revealNext m)
  else
    runTo .finish ((d.revealRest m total).andThen fun d => complete (d.endReveal m total))

/-- Starts to reveal a line, which the session must hold already; a reveal that is under way is
cancelled. -/
def startReveal [Clock τ] (m : Manner τ ω) (text : String) (after : α)
    (complete : Dialogue τ α ω → Attempt (Dialogue τ α ω) Fault) (d : Dialogue τ α ω) :
    Attempt (Dialogue τ α ω) Fault :=
  let d := d.cancelReveal m.stage
  let d := d.withSession fun s => { s with revealing := true, revealed := 0 }
  ((d.perform m.stage (.line text)).andThen fun d => d.perform m.stage (.visible 0)).andThen
    fun d =>
      let (r, id) := (host m.stage).start (.str "reveal_line") (runReveal m text after complete) d
      (r.mapError Fault.misfit).andThen fun d => ({ d with reveal := some id }, none)

/-- Whether a line is being revealed by a task that is not done. -/
def isRevealing (d : Dialogue τ α ω) : Bool := d.reveal.any fun id => !d.scheduler.isDone id

end Dialogue
end VisualNovel
