import Mathlib.Logic.Relation
import VisualNovel.Proofs.Scheduler.Chronicles
/-!
# Cancelling tasks

Whatever is done with a scheduler, on any clock and however one thing comes to be inside the other,
comes about in small steps (`Scheduler.Step`): a task is started or run once more, a run ends, a
task is cancelled, the clock advances. So every point of a run comes later than those before it by a
chain of such steps (`Scheduler.Later`).

`Step.onward` tells what one step leaves of a task, with a case for each kind of step, and
`Later.onward` what all of them do: a task that is done stays done, one that is cancelled stays
cancelled, and once a task is done no run of it begins.

Whatever starts and cancels tasks or advances the clock is such a chain, and leaves none being run
that was not (`Scheduler.Balanced`), as long as bodies are: `start_balanced`, `resume_balanced`,
`update_balanced`, `cancel_balanced`, `cancelAll_balanced`.
-/
namespace VisualNovel
variable {σ τ β : Type}

namespace Scheduler
variable [Clock τ]

/-- One step of what is done with a scheduler; some steps end the run of a task. -/
inductive Step : Option TaskId → Scheduler τ β → Scheduler τ β → Prop
  /-- A task is started, and its first run begins. -/
  | enrol (name : Json) (c : Scheduler τ β) : Step none c (c.enrol name)
  /-- A task is run once more, since it is due. -/
  | awaken {c : Scheduler τ β} {id : TaskId} {t : Task τ β} (ht : c.task? id = some t)
      (hd : t.done = false) (hdue : c.isDue t = true) :
      Step none c (c.modify id fun t => { t with body := .running })
  /-- A run ends, and the body is at its end. -/
  | finish (id : TaskId) (c : Scheduler τ β) : Step (some id) c (c.modify id Task.finish)
  /-- A run ends, and something is left to do. -/
  | suspend (id : TaskId) (rest : β) (c : Scheduler τ β) :
      Step (some id) c (c.modify id fun t => { t with body := .suspended rest })
  /-- It is put down when a task is due. -/
  | putOff (id : TaskId) (wakeTime : τ) (wakeTick : Nat) (c : Scheduler τ β) :
      Step none c (c.modify id fun t => { t with wakeTime, wakeTick })
  /-- A task is given up whose body cannot be run, or that was started in vain. -/
  | giveUp (id : TaskId) (c : Scheduler τ β) :
      Step none c (c.modify id fun t => { t with done := true })
  | cancel {c : Scheduler τ β} {id : TaskId} {t : Task τ β} (ht : c.task? id = some t)
      (hd : t.done = false) : Step none c (c.modify id Task.cancel)
  | advance (time : τ) (c : Scheduler τ β) : Step none c { c with time, tick := c.tick + 1 }
  /-- Other tasks are listed than before. -/
  | list (live : List TaskId) (c : Scheduler τ β) : Step none c { c with live }

/-- One point of a run comes later than another, or is the same. -/
def Later : Scheduler τ β → Scheduler τ β → Prop :=
  Relation.ReflTransGen fun c c' => ∃ ended, Step ended c c'

/-- It comes later, and in between no run of the task has ended. -/
def Within (id : TaskId) : Scheduler τ β → Scheduler τ β → Prop :=
  Relation.ReflTransGen fun c c' => ∃ ended, ended ≠ some id ∧ Step ended c c'

/-- It comes later, and the same tasks are being run: the runs that have begun in between have
ended. -/
structure Balanced (c c' : Scheduler τ β) : Prop where
  later : c.Later c'
  runs : ∀ id, c'.Runs id ↔ c.Runs id

end Scheduler

/-! ## What is left of a task -/

/-- What may become of a task; its run may have ended. -/
structure Task.Onward (ended : Prop) (t t' : Task τ β) : Prop where
  done : t.done = true → t'.done = true
  cancelled : t.cancelled = true → t'.cancelled = true
  running : ¬ended → t.body = .running → t'.body = .running
  /-- If it is done, no run of it begins. -/
  done_running : t.done = true → t'.body = .running → t.body = .running ∧ ¬ended

theorem Task.Onward.refl {ended : Prop} (hended : ¬ended) (t : Task τ β) : t.Onward ended t :=
  ⟨id, id, fun _ => id, fun _ hb => ⟨hb, hended⟩⟩

namespace Scheduler
variable [Clock τ] {c c' c'' : Scheduler τ β} {id j : TaskId} {t : Task τ β} {ended : Option TaskId}

omit [Clock τ] in
theorem onward_modify {f : Task τ β → Task τ β} (hended : ended = none ∨ ended = some id)
    (hf : ∀ t, c.task? id = some t → t.Onward (ended = some id) (f t)) (ht : c.task? j = some t) :
    ∃ t', (c.modify id f).task? j = some t' ∧ t.Onward (ended = some j) t' := by
  by_cases hj : j = id
  · subst hj
    exact ⟨f t, by rw [task?_modify_self, ht]; rfl, hf t ht⟩
  · refine ⟨t, by rw [task?_modify_of_ne c f hj, ht], .refl ?_ t⟩
    rcases hended with rfl | rfl
    · exact nofun
    · exact fun h => hj (Option.some.inj h).symm

/-- What one step leaves of a task. -/
theorem Step.onward (h : Step ended c c') (ht : c.task? j = some t) :
    ∃ t', c'.task? j = some t' ∧ t.Onward (ended = some j) t' := by
  cases h with
  | enrol name => exact ⟨t, (task?_enrol_of_lt (task?_lt ht)).trans ht, .refl nofun t⟩
  | awaken hu hd =>
    refine onward_modify (.inl rfl) (fun u hu' => ?_) ht
    obtain rfl := Option.some.inj (hu.symm.trans hu')
    exact ⟨fun h => h, fun h => h, fun _ _ => rfl, fun hd' => by rw [hd] at hd'; cases hd'⟩
  | finish id =>
    refine onward_modify (.inr rfl) (fun u _ => ?_) ht
    exact ⟨fun _ => rfl, fun h => h, fun h => absurd rfl h, fun _ => nofun⟩
  | suspend id rest =>
    refine onward_modify (.inr rfl) (fun u _ => ?_) ht
    exact ⟨fun h => h, fun h => h, fun h => absurd rfl h, fun _ => nofun⟩
  | putOff id wakeTime wakeTick =>
    refine onward_modify (.inl rfl) (fun u _ => ?_) ht
    exact ⟨fun h => h, fun h => h, fun _ h => h, fun _ h => ⟨h, nofun⟩⟩
  | giveUp id =>
    refine onward_modify (.inl rfl) (fun u _ => ?_) ht
    exact ⟨fun _ => rfl, fun h => h, fun _ h => h, fun _ h => ⟨h, nofun⟩⟩
  | cancel hu hd =>
    refine onward_modify (.inl rfl) (fun u _ => ?_) ht
    exact ⟨fun _ => rfl, fun _ => rfl, fun _ => u.cancel_running_iff.2,
      fun _ h => ⟨u.cancel_running_iff.1 h, nofun⟩⟩
  | advance time => exact ⟨t, ht, .refl nofun t⟩
  | list live => exact ⟨t, ht, .refl nofun t⟩

/-- What all the steps between two points leave of a task that is done: if it is being run in the
end, then it was all the time. -/
theorem Later.onward (h : c.Later c') (ht : c.task? id = some t) (hd : t.done = true) :
    ∃ t', c'.task? id = some t' ∧ t'.done = true ∧ (t.cancelled = true → t'.cancelled = true) ∧
      (t'.body = .running → t.body = .running ∧ Within id c c') := by
  induction h with
  | refl => exact ⟨t, ht, hd, fun h => h, fun hb => ⟨hb, .refl⟩⟩
  | tail _ hstep ih =>
    obtain ⟨u, hu, hdone, hcancelled, hrun⟩ := ih
    obtain ⟨ended, hstep⟩ := hstep
    obtain ⟨u', hu', honward⟩ := hstep.onward hu
    refine ⟨u', hu', honward.done hdone, fun h => honward.cancelled (hcancelled h), fun hb => ?_⟩
    obtain ⟨hb', hended⟩ := honward.done_running hdone hb
    obtain ⟨hbody, hwithin⟩ := hrun hb'
    exact ⟨hbody, hwithin.tail ⟨ended, hended, hstep⟩⟩

/-- A task is being run until its run ends. -/
theorem Within.runs (h : Within id c c') (hid : c.Runs id) : c'.Runs id := by
  induction h with
  | refl => exact hid
  | tail _ hstep ih =>
    obtain ⟨u, hu, hb⟩ := ih
    obtain ⟨ended, hended, hstep⟩ := hstep
    obtain ⟨u', hu', honward⟩ := hstep.onward hu
    exact ⟨u', hu', honward.running hended hb⟩

/-! ## What is balanced -/

theorem Later.step (h : c.Later c') (hstep : Step ended c' c'') : c.Later c'' := h.tail ⟨_, hstep⟩

namespace Balanced

theorem refl (c : Scheduler τ β) : c.Balanced c := ⟨.refl, fun _ => Iff.rfl⟩

theorem trans (h : c.Balanced c') (h' : c'.Balanced c'') : c.Balanced c'' :=
  ⟨h.later.trans h'.later, fun id => (h'.runs id).trans (h.runs id)⟩

theorem step (h : c.Balanced c') (hstep : Step ended c' c'')
    (hruns : ∀ id, c''.Runs id ↔ c'.Runs id) : c.Balanced c'' :=
  ⟨h.later.step hstep, fun id => (hruns id).trans (h.runs id)⟩

/-- A change to one task neither begins nor ends a run. -/
theorem modify (h : c.Balanced c') {f : Task τ β → Task τ β}
    (hstep : Step ended c' (c'.modify id f))
    (hf : ∀ t, c'.task? id = some t → ((f t).body = .running ↔ t.body = .running)) :
    c.Balanced (c'.modify id f) := h.step hstep (Grows.modify f hf).runs

/-- A task that is not done is marked as cancelled; if it is being run, it still is. -/
theorem mark (ht : c.task? id = some t) (hd : t.done = false) :
    c.Balanced (c.modify id Task.cancel) :=
  (refl c).modify (.cancel ht hd) fun u _ => u.cancel_running_iff

end Balanced

section
omit [Clock τ]

/-- When the run of a task ends, all others that were being run still are. -/
theorem runs_modify_end (c : Scheduler τ β) (id j : TaskId) {f : Task τ β → Task τ β}
    (hf : ∀ t, (f t).body ≠ .running) : (c.modify id f).Runs j ↔ j ≠ id ∧ c.Runs j := by
  rw [runs_modify]
  constructor
  · rintro ⟨t, ht, hb⟩
    split at hb
    · exact absurd hb (hf t)
    · next hj => exact ⟨Ne.symm hj, t, ht, hb⟩
  · rintro ⟨hj, t, ht, hb⟩
    exact ⟨t, ht, by rwa [if_neg (Ne.symm hj)]⟩

/-- When a run of a task begins, it is being run, and the others are as before. -/
theorem runs_awaken (ht : c.task? id = some t) (j : TaskId) :
    (c.modify id fun t => { t with body := .running }).Runs j ↔ j = id ∨ c.Runs j := by
  rw [runs_modify]
  constructor
  · rintro ⟨u, hu, hb⟩
    split at hb
    · next hj => exact .inl hj.symm
    · exact .inr ⟨u, hu, hb⟩
  · rintro (rfl | ⟨u, hu, hb⟩)
    · exact ⟨t, ht, by rw [if_pos rfl]⟩
    · exact ⟨u, hu, by split <;> [rfl; exact hb]⟩

theorem runs_enrol (c : Scheduler τ β) (name : Json) (j : TaskId) :
    (c.enrol name).Runs j ↔ j = c.tasks.length ∨ c.Runs j := by
  rcases Nat.lt_trichotomy j c.tasks.length with hlt | rfl | hgt
  · unfold Runs
    rw [task?_enrol_of_lt hlt]
    exact (or_iff_right (Nat.ne_of_lt hlt)).symm
  · exact iff_of_true ⟨_, task?_enrol_new c name, rfl⟩ (.inl rfl)
  · refine iff_of_false ?_ ?_
    · rintro ⟨t, ht, -⟩
      rw [task?_enrol_of_gt hgt] at ht
      cases ht
    · rintro (rfl | ⟨t, ht, -⟩)
      · exact Nat.lt_irrefl _ hgt
      · exact Nat.lt_asymm hgt (task?_lt ht)

end

/-- A run of a task that was not being run begins, it does what is balanced, and it ends. -/
theorem Balanced.of_run {c₁ c₂ : Scheduler τ β} (hid : ¬c.Runs id) (hbegin : Step none c c₁)
    (hruns : ∀ j, c₁.Runs j ↔ j = id ∨ c.Runs j) (hrun : c₁.Balanced c₂) (hend : c₂.Later c')
    (hruns' : ∀ j, c'.Runs j ↔ j ≠ id ∧ c₂.Runs j) : c.Balanced c' where
  later := ((Later.step .refl hbegin).trans hrun.later).trans hend
  runs j := by
    rw [hruns', hrun.runs, hruns]
    constructor
    · rintro ⟨hj, h | h⟩
      · exact absurd h hj
      · exact h
    · intro h
      exact ⟨fun hj => hid (hj ▸ h), .inr h⟩

end Scheduler

namespace Host
open Scheduler (Balanced Later Step)
variable {h : Host σ τ β} {run : β → σ → σ × Outcome τ β} {s s' : σ} {id : TaskId} {t : Task τ β}

/-- To cancel a task that is done changes nothing. -/
theorem cancel_of_done (ht : (h.scheduler s).task? id = some t) (hd : t.done = true) :
    h.cancel id s = (s, true) := by
  simp only [cancel, ht, hd, if_true]

/-- A task that is not done is cancelled, and its body is closed if it is suspended; that returns
unless the task is being run. -/
theorem cancel_of_alive (hh : h.Stores) (ht : (h.scheduler s).task? id = some t)
    (hd : t.done = false) : ∃ s₁, h.scheduler s₁ = (h.scheduler s).modify id Task.cancel ∧
      ((∃ rest, t.body = .suspended rest ∧ h.cancel id s = (h.close rest s₁, true)) ∨
        (t.body = .running ∧ h.cancel id s = (s₁, false)) ∨
        (t.body = .ended ∧ h.cancel id s = (s₁, true))) := by
  have hmark {f : Task τ β → Task τ β} (hf : f t = t.cancel) :
      h.scheduler (h.modify (·.modify id f) s) = (h.scheduler s).modify id Task.cancel := by
    rw [hh.scheduler_modify]
    exact Scheduler.modify_congr ht hf
  simp only [cancel, ht, hd, Bool.false_eq_true, if_false]
  cases hb : t.body with
  | suspended rest => exact ⟨_, hmark (by simp [Task.cancel, hb]), .inl ⟨rest, rfl, rfl⟩⟩
  | running => exact ⟨_, hmark (by simp [Task.cancel, hb]), .inr (.inl ⟨rfl, rfl⟩)⟩
  | ended => exact ⟨_, hmark (by simp [Task.cancel, hb]), .inr (.inr ⟨rfl, rfl⟩)⟩

theorem cancel_returns_iff (hh : h.Stores) (ht : (h.scheduler s).task? id = some t)
    (hd : t.done = false) : (h.cancel id s).2 = true ↔ t.body ≠ .running := by
  obtain ⟨s₁, -, ⟨rest, hb, hcancel⟩ | ⟨hb, hcancel⟩ | ⟨hb, hcancel⟩⟩ := cancel_of_alive hh ht hd
  all_goals simp [hb, hcancel]

variable [Clock τ]

/-- The run of a task ends: of those that were being run, all others still are. -/
theorem settle_ends (hh : h.Stores) (id : TaskId) (now : τ) (tick : Nat) (o : Outcome τ β) (s : σ) :
    (h.scheduler s).Later (h.scheduler (h.settle id now tick o s).1) ∧
      ∀ j, (h.scheduler (h.settle id now tick o s).1).Runs j ↔ j ≠ id ∧ (h.scheduler s).Runs j := by
  cases o with
  | finish =>
    simp only [settle, hh.scheduler_modify]
    exact ⟨Later.step .refl (.finish id _), fun j =>
      Scheduler.runs_modify_end _ id j Task.finish_ne_running⟩
  | fail =>
    simp only [settle, fail, hh.scheduler_modify, hh.scheduler_report]
    exact ⟨Later.step .refl (.finish id _), fun j =>
      Scheduler.runs_modify_end _ id j Task.finish_ne_running⟩
  | suspend r rest =>
    have hsuspend := Later.step .refl (.suspend id rest (h.scheduler s))
    have hruns (j : TaskId) := Scheduler.runs_modify_end (h.scheduler s) id j
      (f := fun t => { t with body := .suspended rest }) fun _ hb => by cases hb
    simp only [settle, suspend]
    split
    · rw [hh.scheduler_modify]
      exact ⟨hsuspend, hruns⟩
    · split
      · rw [hh.scheduler_modify]
        exact ⟨hsuspend, hruns⟩
      · simp only [hh.scheduler_modify]
        refine ⟨hsuspend.step (.putOff id _ _ _), fun j => ?_⟩
        rw [← hruns]
        exact (Balanced.modify (.refl _) (.putOff id _ _ _) fun _ _ => Iff.rfl).runs j

/-- A task is started, and its first run comes to its end. -/
theorem start_balanced (hh : h.Stores) (name : Json) {first : σ → σ × Outcome τ β}
    (hfirst : ((h.scheduler s).enrol name).Balanced
      (h.scheduler (first (h.modify (·.enrol name) s)).1)) :
    (h.scheduler s).Balanced (h.scheduler (h.start name first s).1.1) := by
  obtain ⟨⟨s₂, o⟩, hs₂⟩ : ∃ r, first (h.modify (·.enrol name) s) = r := ⟨_, rfl⟩
  have hbegin : first (h.modify (fun c => { c with
      tasks := c.tasks ++ [{ name, body := .running, wakeTime := c.time }] }) s) = (s₂, o) := hs₂
  rw [hs₂] at hfirst
  have hnew : ¬(h.scheduler s).Runs (h.scheduler s).tasks.length := by
    rintro ⟨t, ht, -⟩
    exact Nat.lt_irrefl _ (Scheduler.task?_lt ht)
  obtain ⟨hend, hruns⟩ := settle_ends hh (h.scheduler s).tasks.length (h.scheduler s).time
    (h.scheduler s).tick o s₂
  have hall := Balanced.of_run hnew (.enrol name _) (Scheduler.runs_enrol _ name) hfirst hend hruns
  simp only [start, hbegin]
  obtain ⟨⟨s₃, e⟩, hs₃⟩ : ∃ r, h.settle (h.scheduler s).tasks.length (h.scheduler s).time
    (h.scheduler s).tick o s₂ = r := ⟨_, rfl⟩
  rw [hs₃] at hall ⊢
  cases e with
  | some e =>
    simp only [hh.scheduler_modify]
    exact hall.modify (.giveUp _ _) fun _ _ => Iff.rfl
  | none =>
    simp only
    split
    · exact hall
    · rw [hh.scheduler_modify]
      exact hall.step (.list _ _) fun _ => Iff.rfl

/-- A task that is due is run once more, and that run comes to its end. -/
theorem resume_balanced (hh : h.Stores)
    (hrun : ∀ body s, (h.scheduler s).Balanced (h.scheduler (run body s).1))
    (ht : (h.scheduler s).task? id = some t) (hd : t.done = false)
    (hdue : (h.scheduler s).isDue t = true) :
    (h.scheduler s).Balanced (h.scheduler (h.resume run id s).1) := by
  simp only [resume, ht]
  cases hb : t.body with
  | running =>
    simp only [fail, hh.scheduler_modify, hh.scheduler_report]
    exact (Balanced.refl _).modify (.giveUp id _) fun _ _ => Iff.rfl
  | ended =>
    simp only [hh.scheduler_modify]
    refine (Balanced.refl _).modify (.finish id _) fun u hu => ?_
    obtain rfl := Option.some.inj (hu.symm.trans ht)
    exact iff_of_false u.finish_ne_running fun hrunning => by
      rw [hb] at hrunning
      cases hrunning
  | suspended rest =>
    have hnot : ¬(h.scheduler s).Runs id := by
      rintro ⟨u, hu, hbody⟩
      obtain rfl := Option.some.inj (ht.symm.trans hu)
      rw [hb] at hbody
      cases hbody
    obtain ⟨s₁, hs₁⟩ : ∃ s₁, h.modify (·.modify id fun t => { t with body := .running }) s = s₁ :=
      ⟨_, rfl⟩
    have hawaken : h.scheduler s₁ =
        (h.scheduler s).modify id fun t => { t with body := .running } := by
      rw [← hs₁, hh.scheduler_modify]
    simp only [hs₁]
    obtain ⟨hend, hruns⟩ := settle_ends hh id t.wakeTime (h.scheduler s).tick (run rest s₁).2
      (run rest s₁).1
    refine Balanced.of_run hnot (.awaken ht hd hdue) (Scheduler.runs_awaken ht) ?_ hend hruns
    rw [← hawaken]
    exact hrun rest s₁

/-- When an update comes to a task that is done, nothing is done. -/
theorem runDue_of_done (ht : (h.scheduler s).task? id = some t) (hd : t.done = true) (fuel : Nat) :
    h.runDue run id fuel s = (s, none) := by
  cases fuel with
  | zero => rfl
  | succ fuel => simp [runDue, ht, hd]

theorem update_balanced (hh : h.Stores)
    (hrun : ∀ body s, (h.scheduler s).Balanced (h.scheduler (run body s).1)) (rounds : β → Nat)
    (dt : τ) (s : σ) : (h.scheduler s).Balanced (h.scheduler (h.update run rounds dt s).1) := by
  refine update_keeps (J := fun s' => (h.scheduler s).Balanced (h.scheduler s')) h run rounds dt
    (.refl _) (fun time _ => ?_)
    (fun s' id t hs' ht hd hdue => hs'.trans (resume_balanced hh hrun ht hd hdue)) fun s' hs' => ?_
  · rw [hh.scheduler_modify]
    exact (Balanced.refl _).step (.advance time _) fun _ => Iff.rfl
  · unfold sweep
    rw [hh.scheduler_modify]
    exact hs'.step (.list _ _) fun _ => Iff.rfl

/-- First the task is marked, then its body is closed. -/
theorem cancel_later (hh : h.Stores)
    (hclose : ∀ body s, (h.scheduler s).Balanced (h.scheduler (h.close body s)))
    (ht : (h.scheduler s).task? id = some t) (hd : t.done = false) :
    ((h.scheduler s).modify id Task.cancel).Balanced (h.scheduler (h.cancel id s).1) := by
  obtain ⟨s₁, hs₁, ⟨rest, -, hcancel⟩ | ⟨-, hcancel⟩ | ⟨-, hcancel⟩⟩ := cancel_of_alive hh ht hd
  all_goals rw [hcancel, ← hs₁]
  · exact hclose rest s₁
  · exact .refl _
  · exact .refl _

theorem cancel_balanced (hh : h.Stores)
    (hclose : ∀ body s, (h.scheduler s).Balanced (h.scheduler (h.close body s))) (id : TaskId)
    (s : σ) : (h.scheduler s).Balanced (h.scheduler (h.cancel id s).1) := by
  cases ht : (h.scheduler s).task? id with
  | none =>
    simp only [cancel, ht]
    exact .refl _
  | some t =>
    cases hd : t.done with
    | true =>
      rw [cancel_of_done ht hd]
      exact .refl _
    | false => exact (Balanced.mark ht hd).trans (cancel_later hh hclose ht hd)

theorem cancelAll_balanced (hh : h.Stores)
    (hclose : ∀ body s, (h.scheduler s).Balanced (h.scheduler (h.close body s))) (s : σ) :
    (h.scheduler s).Balanced (h.scheduler (h.cancelAll s).1) := by
  have heach (ids : List TaskId) (s : σ) :
      (h.scheduler s).Balanced (h.scheduler (h.cancelEach ids s).1) := by
    induction ids generalizing s with
    | nil => exact .refl _
    | cons id ids ih =>
      have hcancel := cancel_balanced hh hclose id s
      unfold cancelEach
      obtain ⟨⟨s', free⟩, hs'⟩ : ∃ r, h.cancel id s = r := ⟨_, rfl⟩
      rw [hs'] at hcancel ⊢
      cases free with
      | true => exact hcancel.trans (ih s')
      | false => exact hcancel
  have hall := heach (h.scheduler s).live s
  unfold cancelAll
  obtain ⟨⟨s', free⟩, hs'⟩ : ∃ r, h.cancelEach (h.scheduler s).live s = r := ⟨_, rfl⟩
  rw [hs'] at hall ⊢
  cases free with
  | true =>
    simp only [hh.scheduler_modify]
    exact hall.step (.list [] _) fun _ => Iff.rfl
  | false => exact hall

/-- What it is to cancel the tasks of a host, at whatever point of whatever is done with it. -/
structure Cancels (h : Host σ τ β) (run : β → σ → σ × Outcome τ β) : Prop where
  /-- Whatever is done with the tasks comes about in steps, and no run that begins is left open. -/
  start : ∀ name body s, (h.scheduler s).Balanced (h.scheduler (h.start name (run body) s).1.1)
  update : ∀ rounds dt s, (h.scheduler s).Balanced (h.scheduler (h.update run rounds dt s).1)
  cancel : ∀ id s, (h.scheduler s).Balanced (h.scheduler (h.cancel id s).1)
  cancelAll : ∀ s, (h.scheduler s).Balanced (h.scheduler (h.cancelAll s).1)
  /-- To cancel a task that is done changes nothing. -/
  done : ∀ s id t, (h.scheduler s).task? id = some t → t.done = true → h.cancel id s = (s, true)
  /-- To cancel a task that is not done returns unless the task is being run, … -/
  returns : ∀ s id t, (h.scheduler s).task? id = some t → t.done = false →
    ((h.cancel id s).2 = true ↔ ¬(h.scheduler s).Runs id)
  /-- … which it is from when its run begins until that run ends, also in the runs of the tasks that
  it starts. -/
  within : ∀ s s' id, (h.scheduler s).Runs id → (h.scheduler s).Within id (h.scheduler s') →
    (h.scheduler s').Runs id
  /-- Behind that the task is cancelled and done at every later point, and when an update comes to
  it there, nothing is done. If it is being run there, then it was when it was cancelled, and has
  been since. -/
  final : ∀ s id t s', (h.scheduler s).task? id = some t → t.done = false →
    (h.scheduler (h.cancel id s).1).Later (h.scheduler s') →
    ∃ t', (h.scheduler s').task? id = some t' ∧ t'.cancelled = true ∧ t'.done = true ∧
      (∀ fuel, h.runDue run id fuel s' = (s', none)) ∧ ((h.scheduler s').Runs id →
        (h.scheduler s).Runs id ∧ (h.scheduler (h.cancel id s).1).Within id (h.scheduler s'))

/-- To do what bodies may do that start and cancel tasks is balanced. -/
theorem Acts.balanced {h : Host σ Rat β} (hh : h.Stores) {new : List (Note Rat)} {s s' : σ}
    (hs : h.Acts new s s') : (h.scheduler s).Balanced (h.scheduler s') := by
  induction hs with
  | refl s => exact .refl _
  | beside hsame _ ih =>
    rw [← hsame]
    exact ih
  | start name run _ _ ihrun ihlater =>
    rw [hh.scheduler_modify] at ihrun
    exact (start_balanced hh name ihrun).trans ihlater
  | cancel ht hd _ _ ihclose ihlater =>
    rw [hh.scheduler_modify] at ihclose
    exact ((Balanced.mark ht hd).trans ihclose).trans ihlater

/-- A task that is cancelled is done for good, whatever it is doing; but if it is being run, the one
who cancels it is not told so. -/
theorem cancelled_for_good (hh : h.Stores)
    (hrun : ∀ body s, (h.scheduler s).Balanced (h.scheduler (run body s).1))
    (hclose : ∀ body s, (h.scheduler s).Balanced (h.scheduler (h.close body s))) :
    h.Cancels run where
  start name body s := start_balanced hh name (by
    have hfirst := hrun body (h.modify (·.enrol name) s)
    rwa [hh.scheduler_modify] at hfirst)
  update rounds dt s := update_balanced hh hrun rounds dt s
  cancel id s := cancel_balanced hh hclose id s
  cancelAll s := cancelAll_balanced hh hclose s
  done s id t ht hd := cancel_of_done ht hd
  returns s id t ht hd := by
    rw [cancel_returns_iff hh ht hd, Scheduler.Runs, ht]
    simp
  within s s' id hid hwithin := hwithin.runs hid
  final s id t s' ht hd hlater := by
    have hmarked : ((h.scheduler s).modify id Task.cancel).task? id = some t.cancel := by
      rw [Scheduler.task?_modify_self, ht]
      rfl
    obtain ⟨u, hu, hdone, hcancelled, hopen⟩ :=
      (cancel_later hh hclose ht hd).later.onward hmarked rfl
    obtain ⟨t', ht', hdone', hcancelled', hopen'⟩ := hlater.onward hu hdone
    refine ⟨t', ht', hcancelled' (hcancelled rfl), hdone', runDue_of_done ht' hdone', ?_⟩
    rintro ⟨v, hv, hb⟩
    obtain rfl := Option.some.inj (ht'.symm.trans hv)
    obtain ⟨hub, hwithin⟩ := hopen' hb
    exact ⟨⟨t, ht, t.cancel_running_iff.1 (hopen hub).1⟩, hwithin⟩

end Host

/-- A task that is known to itself and cancels itself when it is run once more. -/
def Workshop.quitter : Workshop Rat :=
  (start .null .null [.tick, .cancel .null, .mark .null] empty).1.1

/-- The task is cancelled, and it fails, since its body cannot be closed in its own run. -/
theorem Workshop.quitter_fails :
    host.Cancels (run (τ := Rat)) ∧
      (update 1 quitter).1.scheduler.tasks.map (fun t => (t.cancelled, t.done)) = [(true, true)] ∧
      (update 1 quitter).1.log = [Task.failure usualName] :=
  ⟨Host.cancelled_for_good host_lawful.stores
      (fun body w => (conduct.acts body w).balanced host_lawful.stores) fun _ _ => .refl _,
    by decide +kernel, by decide +kernel⟩

end VisualNovel
