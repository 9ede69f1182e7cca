import VisualNovel.Clock
import VisualNovel.Json.Access
/-!
# Pace

A game is updated in steps of one length, however long its frames take. The time of a frame is added
to what was left over; for each step that fits into it there is an update, up to a most number of
updates a frame; when that is reached the rest is dropped. A frame that took very long counts as a
quarter of a second.

The step and the most may be no numbers. A step that is none cannot be compared with any time, and a
most that is none is found out after the first update.
-/
namespace VisualNovel

/-- The most updates in a frame; there is always room for one. -/
inductive Most where
  | upTo (n : Nat)
  /-- As many as there is time for. -/
  | endless
  /-- It is no number. -/
  | unfit
  deriving DecidableEq, Repr

/-- Reads the most updates in a frame. -/
def Most.ofJson (j : Json) : Most :=
  match j.number with
  | .error _ => unfit
  | .ok (.int n) => upTo n.toNat
  | .ok (.real x) =>
    match Number.ceil? x with
    | some n => upTo n.toNat
    | none => if x < 0 then upTo 0 else endless

/-- The length of a step, and the most updates in a frame. -/
structure Pace (τ : Type) where
  step : τ
  most : Most
  deriving DecidableEq, Repr

/-- The updates of a frame, the time carried over to the next one, and why that broke off after the
updates, if it did. -/
structure Plan (τ : Type) where
  updates : Nat
  carried : τ
  fault : Option Misfit := none
  deriving DecidableEq, Repr

/-- A plan with one update in front of it. -/
def Plan.later (p : Plan τ) : Plan τ := { p with updates := p.updates + 1 }

namespace Pace
variable {τ : Type} [Clock τ]

/-- The longest time a frame counts as. -/
def longest : τ := Clock.ratio 1 4

/-- The time a frame counts as. -/
def clamp (time : τ) : τ := if Clock.lt longest time then longest else time

/-- More updates than there is time for in any frame that ends. -/
def frameLimit : Nat := 1000000

/-- The updates that a time has room for, `room` of them at most. -/
def planUpTo (step : τ) : (room : Nat) → (time : τ) → Plan τ
  | 0, _ => ⟨0, Clock.zero, none⟩
  | room + 1, time =>
    if Clock.le step time then
      match Clock.sub time step with
      | .ok left => (planUpTo step room left).later
      | .error e => ⟨1, time, some e⟩
    else ⟨0, time, none⟩

/-- The first update of a time, after which it is found out that there is no most number. -/
def planOne (step time : τ) : Plan τ :=
  if Clock.le step time then ⟨1, time, some .kind⟩ else ⟨0, time, none⟩

/-- The updates that a time has room for. -/
def plan (p : Pace τ) (time : τ) : Plan τ :=
  if !Clock.isTime p.step then ⟨0, time, some .kind⟩
  else
    match p.most with
    | .upTo n => planUpTo p.step (max 1 n) time
    | .endless => planUpTo p.step frameLimit time
    | .unfit => planOne p.step time

/-- What is left over and the time of a frame that lasts from one time to another. -/
def gather (carried last now : τ) : Except Misfit τ := do
  Clock.add carried (clamp (← Clock.sub now last))

/-- How far the time carried over reaches into the next step. -/
def progress (p : Pace τ) (carried : τ) : Except Misfit τ := Clock.div carried p.step

end Pace
end VisualNovel
