/-!
# Attempts

What is done in a world may break off half way. The world is then what it has become so far, and the
reason is given beside it.

Results:
* `andThen_none`: behind nothing that breaks off, the next step is all there is.
* `andThen_assoc`: steps may be grouped in any way.
* `andThen_keeps`, `inTurn_keeps`: what each step keeps, whether it breaks off or not, is kept.
-/
namespace VisualNovel

/-- A world after something was done in it, and why that broke off, if it did. -/
abbrev Attempt (σ ε : Type) := σ × Option ε

namespace Attempt
variable {σ ε φ : Type}

/-- Goes on with the next step, if nothing has broken off. -/
def andThen (r : Attempt σ ε) (next : σ → Attempt σ ε) : Attempt σ ε :=
  match r with
  | (s, none) => next s
  | (s, some e) => (s, some e)

/-- Gives the reason in other words. -/
def mapError (f : ε → φ) (r : Attempt σ ε) : Attempt σ φ := (r.1, r.2.map f)

/-- Does the same for several things in turn. -/
def inTurn (f : α → σ → Attempt σ ε) : List α → σ → Attempt σ ε
  | [], s => (s, none)
  | x :: xs, s => (f x s : Attempt σ ε).andThen (inTurn f xs)

/-- Does the same a number of times. -/
def times (f : σ → Attempt σ ε) : Nat → σ → Attempt σ ε
  | 0, s => (s, none)
  | n + 1, s => (f s : Attempt σ ε).andThen (times f n)

theorem andThen_none (s : σ) (next : σ → Attempt σ ε) : andThen (s, none) next = next s := rfl

theorem andThen_assoc (r : Attempt σ ε) (f g : σ → Attempt σ ε) :
    (r.andThen f).andThen g = r.andThen fun s => (f s : Attempt σ ε).andThen g := by
  obtain ⟨s, e⟩ := r
  cases e <;> rfl

theorem andThen_keeps {P : σ → Prop} {r : Attempt σ ε} {next : σ → Attempt σ ε} (hr : P r.1)
    (hn : ∀ s, P s → P (next s).1) : P (r.andThen next).1 := by
  obtain ⟨s, e⟩ := r
  cases e with
  | none => exact hn s hr
  | some e => exact hr

theorem inTurn_keeps {P : σ → Prop} {f : α → σ → Attempt σ ε} (hf : ∀ x s, P s → P (f x s).1)
    (xs : List α) {s : σ} (hs : P s) : P (inTurn f xs s).1 := by
  induction xs generalizing s with
  | nil => exact hs
  | cons x xs ih => exact andThen_keeps (hf x s hs) fun s hs => ih hs

end Attempt
end VisualNovel
