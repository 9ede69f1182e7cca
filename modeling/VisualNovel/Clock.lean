import VisualNovel.Json.Value
/-!
# Clocks

What the scheduler and the game loop need of a type of times: sums, differences and quotients as far
as there are any, an order that can be tested, and fractions. Everything that counts time is written
over any clock, so it runs on the values of an input and can be reasoned about on exact numbers.
-/
namespace VisualNovel

/-- A type of times. -/
class Clock (τ : Type) where
  /-- Whether a value is a time at all. -/
  isTime : τ → Bool
  add : τ → τ → Except Misfit τ
  sub : τ → τ → Except Misfit τ
  div : τ → τ → Except Misfit τ
  /-- Whether a time is not after another. -/
  le : τ → τ → Bool
  /-- Whether a time is before another. -/
  lt : τ → τ → Bool
  /-- No time at all. -/
  zero : τ
  /-- The fraction of two naturals. -/
  ratio : Nat → Nat → τ

namespace Clock

/-- The beginning of time. -/
def origin (τ : Type) [Clock τ] : τ := ratio 0 1

/-- How much too early a task may be resumed, to allow for rounding. -/
def slack (τ : Type) [Clock τ] : τ := ratio 1 1000000000

end Clock

/-- An operation on the numbers that two values are. -/
def Json.onNumbers (f : Number → Number → Except Misfit Number) (a b : Json) :
    Except Misfit Json := do
  return .ofNumber (← f (← a.number) (← b.number))

/-- A comparison of the numbers that two values are; nothing else compares. -/
def Json.testNumbers (f : Number → Number → Bool) (a b : Json) : Bool :=
  match a.number, b.number with
  | .ok a, .ok b => f a b
  | _, _ => false

/-- The times of inputs are the numbers among JSON values. -/
instance : Clock Json where
  isTime j := j.number.toBool
  add := Json.onNumbers Number.add
  sub := Json.onNumbers Number.sub
  div := Json.onNumbers Number.div
  le := Json.testNumbers Number.le
  lt := Json.testNumbers Number.lt
  zero := .int 0
  ratio n d := .real (Number.nearest false n d)

end VisualNovel
