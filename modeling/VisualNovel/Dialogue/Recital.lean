import VisualNovel.Dialogue.Reveal
/-!
# Recitals

A recital reveals lines that are given one by one, without a story. A line may have further lines
in its wake: each of them is begun as soon as the one before it is complete.
-/
namespace VisualNovel

/-- What a recital leaves behind. -/
inductive RecitalMark where
  | call (c : Call)
  /-- A line is complete. -/
  | complete
  deriving DecidableEq

/-- The surroundings of a recital, which only write down what reaches them. -/
structure RecitalRecord where
  marks : List RecitalMark := []
  log : List Log.Entry := []
  deriving DecidableEq

/-- A dialogue without a story. A line that is complete is either nobody's business, or it leaves a
mark and the lines in its wake follow. -/
abbrev Recital (τ : Type) := Dialogue τ (Option (List String)) RecitalRecord

namespace Recital
variable {τ : Type}

/-- The stage that writes down every call. -/
def stage : Stage RecitalRecord where
  perform c r := ({ r with marks := r.marks ++ [.call c] }, none)
  report e r := { r with log := r.log ++ [e] }
  slots _ := .count 0

/-- The manner of a recital: the delay after a character and the sound of a character. -/
def manner (interval : τ) (sound : Json) : Manner τ RecitalRecord := ⟨stage, interval, sound⟩

/-- Marks a complete line. -/
def markComplete (d : Recital τ) : Recital τ :=
  d.withOutside fun r => { r with marks := r.marks ++ [.complete] }

/-- A line is complete: the first of the lines in its wake is begun. -/
def goOn [Clock τ] (m : Manner τ RecitalRecord) :
    List String → Recital τ → Attempt (Recital τ) Fault
  | [], d => (d.markComplete, none)
  | line :: wake, d =>
    let d := d.markComplete.withSession (Session.beginLine line)
    d.startReveal m line (some wake) (goOn m wake)

/-- What is done when a line is complete. -/
def complete [Clock τ] (m : Manner τ RecitalRecord) (after : Option (List String))
    (d : Recital τ) : Attempt (Recital τ) Fault :=
  after.elim (d, none) (goOn m · d)

/-- Begins a line. -/
def begin [Clock τ] (m : Manner τ RecitalRecord) (line : String) (after : Option (List String))
    (d : Recital τ) : Attempt (Recital τ) Fault :=
  (d.withSession (Session.beginLine line)).startReveal m line after (complete m after)

/-- The task that reveals the line. -/
def task? (d : Recital τ) : Option (Task τ (Activity (Option (List String)))) :=
  d.reveal.bind d.scheduler.task?

/-- One run of a task. -/
def run [Clock τ] (m : Manner τ RecitalRecord) (a : Activity (Option (List String)))
    (d : Recital τ) : Recital τ × Outcome τ (Activity (Option (List String))) :=
  match a with
  | .reveal text after => d.runReveal m text after (complete m after)
  | .focusChoice | .focusStart => (d, .finish)

/-- Lets time pass. -/
def update [Clock τ] (m : Manner τ RecitalRecord) (dt : τ) (d : Recital τ) :
    Attempt (Recital τ) Fault :=
  ((Dialogue.host m.stage).update (run m) Activity.rounds dt d).mapError Fault.misfit

/-- Asks for the rest of the line at once. -/
def skip (d : Recital τ) : Recital τ := d.withSession fun s => { s with skip := true }

/-- Stops the line. -/
def cancel (m : Manner τ RecitalRecord) (d : Recital τ) : Recital τ := d.cancelReveal m.stage

/-- Ends the session, though not the task that reveals the line. -/
def finish (d : Recital τ) : Recital τ := d.withSession Session.finish

end Recital
end VisualNovel
