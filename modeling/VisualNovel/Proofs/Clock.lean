import VisualNovel.Clock
/-!
# Clocks that run

A clock runs for an interval if the interval can be added to every time that it can come to. The
exact clock of rational numbers does, and so does the clock of inputs if the interval is a double.
-/
namespace VisualNovel

/-- What is asked of a clock: it starts at one of the times that it can show, each of those leads to
another one, and the interval can be added to each. -/
structure Clock.Runs [Clock τ] (interval : τ) (reading : τ → Prop) : Prop where
  origin : reading (Clock.origin τ)
  pass : ∀ t dt t', reading t → Clock.add t dt = .ok t' → reading t'
  wait : ∀ t, reading t → ∃ t', Clock.add t interval = .ok t'

/-- Rational numbers are exact times. -/
instance : Clock Rat where
  isTime _ := true
  add s t := .ok (s + t)
  sub s t := .ok (s - t)
  div s t := if t = 0 then .error .zero else .ok (s / t)
  le s t := decide (s ≤ t)
  lt s t := decide (s < t)
  zero := 0
  ratio m n := m / n

/-- The exact clock runs, whatever the interval. -/
theorem Clock.runs_rat (interval : Rat) : Clock.Runs interval fun _ => True :=
  ⟨trivial, fun _ _ _ _ _ => trivial, fun t _ => ⟨t + interval, rfl⟩⟩

/-- The clock of inputs runs if the interval is a double. -/
theorem Clock.runs_json (x : Float) :
    Clock.Runs (.real x) fun t : Json => ∃ y, t = .real y := by
  refine ⟨⟨_, rfl⟩, ?_, ?_⟩
  · rintro t dt t' ⟨y, rfl⟩ h
    have hadd : Clock.add (.real y) dt = Json.onNumbers Number.add (.real y) dt := rfl
    rw [hadd, Json.onNumbers, Json.number] at h
    match hn : dt.number with
    | .error e =>
      rw [hn] at h
      cases h
    | .ok (.real z) =>
      rw [hn] at h
      cases h
      exact ⟨_, rfl⟩
    | .ok (.int n) =>
      rw [hn] at h
      match hz : Number.finite (Number.ofInt n) with
      | .error e =>
        simp [bind, Except.bind, Number.add, Number.combine, Number.toFloat, hz] at h
      | .ok z =>
        simp [bind, Except.bind, pure, Except.pure, Number.add, Number.combine, Number.toFloat,
          Json.ofNumber, hz] at h
        exact ⟨_, h.symm⟩
  · rintro t ⟨y, rfl⟩
    exact ⟨.real (y + x), rfl⟩

end VisualNovel
