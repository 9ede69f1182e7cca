import Mathlib.Data.Rat.Defs
import Mathlib.Tactic.Linarith
import VisualNovel.Proofs.Clock
import VisualNovel.Scheduler
/-!
# Timetables

A timetable says at which times a waiting task may be due. A loose one says only that the clock can
show the time at which the task is due; any clock that runs has one. On the exact clock, as long as
time does not run backwards, a task is due at most one delay after the present (`Timetable.exact`),
so an update that takes as long as the delay finds it due (`Timetable.due_of_exact`).
-/
namespace VisualNovel

/-- Which times a clock can show, by which times it may advance, and when a waiting task may be
due. -/
structure Timetable (τ : Type) where
  reading : τ → Prop
  step : τ → Prop
  timely : (time : τ) → (tick : Nat) → (wakeTime : τ) → (wakeTick : Nat) → Prop

namespace Timetable
variable {τ : Type} [Clock τ]

/-- What is asked of a timetable: tasks that wait for the delay or for the next tick are on it, they
stay on it as time passes, and they are on it again when they were due. -/
structure Runs (T : Timetable τ) (interval : τ) : Prop where
  origin : T.reading (Clock.origin τ)
  wait : ∀ t, T.reading t → ∃ t', Clock.add t interval = .ok t'
  wakes : ∀ time tick t k, T.timely time tick t k → T.reading t
  pass : ∀ time dt time', T.reading time → T.step dt → Clock.add time dt = .ok time' →
    T.reading time'
  next : ∀ time tick, T.reading time → T.timely time tick time (tick + 1)
  first : ∀ time tick t, T.reading time → Clock.add time interval = .ok t →
    T.timely time tick t ((Request.wait interval).wakeTick tick)
  again : ∀ time tick t k t', T.timely time tick t k →
    (Clock.add time (Clock.slack τ)).toOption.any (Clock.le t ·) = true →
    Clock.add t interval = .ok t' → T.timely time tick t' ((Request.wait interval).wakeTick tick)
  later : ∀ time tick t k dt time', T.timely time tick t k → T.step dt →
    Clock.add time dt = .ok time' → T.timely time' (tick + 1) t k

/-- The timetable that says no more than which times there are. -/
def loose (reading : τ → Prop) : Timetable τ := ⟨reading, fun _ => True, fun _ _ t _ => reading t⟩

theorem loose_runs {interval : τ} {reading : τ → Prop} (h : Clock.Runs interval reading) :
    (loose reading).Runs interval where
  origin := h.origin
  wait := h.wait
  wakes _ _ _ _ ht := ht
  pass time dt time' ht _ hadd := h.pass time dt time' ht hadd
  next _ _ ht := ht
  first time _ t ht hadd := h.pass time interval t ht hadd
  again _ _ t _ t' ht _ hadd := h.pass t interval t' ht hadd
  later _ _ _ _ _ _ ht _ _ := ht

/-- The timetable of the exact clock when time does not run backwards: a task is due at most one
delay after the present, but for the time by which it may be resumed too early. -/
def exact (interval : Rat) : Timetable Rat where
  reading _ := True
  step dt := 0 ≤ dt
  timely time tick t k := t ≤ time + Clock.slack Rat + interval ∧ k ≤ tick + 1

theorem slack_nonneg : 0 ≤ Clock.slack Rat := by
  show (0 : Rat) ≤ (1 : Nat) / (1000000000 : Nat)
  norm_num

theorem wakeTick_le (r : Request Rat) (tick : Nat) : r.wakeTick tick ≤ tick + 1 := by
  cases r with
  | nextTick => exact Nat.le_refl _
  | wait seconds =>
    show (if Clock.lt Clock.zero seconds then tick else tick + 1) ≤ tick + 1
    split
    · exact Nat.le_succ tick
    · exact Nat.le_refl _

theorem exact_runs {interval : Rat} (h : 0 ≤ interval) : (exact interval).Runs interval where
  origin := trivial
  wait t _ := ⟨t + interval, rfl⟩
  wakes _ _ _ _ _ := trivial
  pass _ _ _ _ _ _ := trivial
  next time tick _ := ⟨by have := slack_nonneg; linarith, Nat.le_refl _⟩
  first time tick t _ hadd := by
    cases hadd
    exact ⟨by have := slack_nonneg; linarith, wakeTick_le _ tick⟩
  again time tick t k t' _ hdue hadd := by
    cases hadd
    have hle : t ≤ time + Clock.slack Rat := of_decide_eq_true hdue
    exact ⟨by linarith, wakeTick_le _ tick⟩
  later time tick t k dt time' ht hdt hadd := by
    cases hadd
    obtain ⟨hle, htick⟩ := ht
    have hdt' : 0 ≤ dt := hdt
    exact ⟨by linarith, by omega⟩

/-- When as much time has passed as the delay takes, a task on the exact timetable is due. -/
theorem due_of_exact {interval dt : Rat} {s : Scheduler Rat β} {t : Task Rat β}
    (h : (exact interval).timely s.time s.tick t.wakeTime t.wakeTick) (hdt : interval ≤ dt) :
    ({ s with time := s.time + dt, tick := s.tick + 1 } : Scheduler Rat β).isDue t = true := by
  obtain ⟨hle, htick⟩ := h
  have hdue : t.wakeTime ≤ s.time + dt + Clock.slack Rat := by linarith
  unfold Scheduler.isDue
  rw [Bool.and_eq_true]
  exact ⟨decide_eq_true htick, decide_eq_true hdue⟩

end Timetable
end VisualNovel
