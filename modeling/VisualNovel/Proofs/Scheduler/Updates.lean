import Mathlib.Algebra.Order.BigOperators.Group.List
import Mathlib.Algebra.Order.Ring.Unbundled.Rat
import VisualNovel.Proofs.Scheduler.Rounds
/-!
# Updates of tasks that keep to themselves

Between two updates a scheduler is steady (`Scheduler.Steady`), and each update leaves it so
(`steady_update`). An update takes every task that waits along its course, up to the time that the
clock shows then (`update_passes`), and so do several updates in turn (`updates_pass`).

That the runs are recorded makes no difference to what is done (`update_mirrors`).
-/
namespace VisualNovel

namespace Scheduler
variable {β : Type} {P : β → Rat → Prop} {c : Scheduler Rat β} {id : TaskId} {t : Task Rat β}

/-- No task is being run, and every task that is not done waits where an update finds it, and keeps
to itself from the time at which it is due. -/
structure Steady (P : β → Rat → Prop) (c : Scheduler Rat β) : Prop where
  idle : c.Idle
  orderly : c.Orderly fun t rest => P rest t.wakeTime ∧ t.wakeTick ≤ c.tick

theorem steady_empty (P : β → Rat → Prop) : (Scheduler.empty : Scheduler Rat β).Steady P where
  idle id t ht := by cases ht
  orderly := ⟨List.nodup_nil, by simp [empty], fun id t ht => by cases ht⟩

/-- A task that is not done waits. -/
theorem Steady.waits (h : c.Steady P) (ht : c.task? id = some t) (hd : t.done = false) :
    ∃ body, t.left? = some body ∧ P body t.wakeTime ∧ t.wakeTick ≤ c.tick ∧ id ∈ c.live := by
  rcases h.orderly.listed id t ht hd with hb | ⟨⟨body, hl, hP, htick⟩, hlive⟩
  · exact absurd hb (h.idle id t ht)
  · exact ⟨body, hl, hP, htick, hlive⟩

theorem Steady.ready (h : c.Steady P) (hid : id ∈ c.live) : Host.Ready P c id := by
  have hlt := h.orderly.bound id hid
  obtain ⟨t, ht⟩ : ∃ t, c.task? id = some t := ⟨c.tasks[id], by simp [task?, hlt]⟩
  refine ⟨t, ht, ?_⟩
  cases hd : t.done with
  | true => exact .inl rfl
  | false =>
    obtain ⟨body, hl, hP, htick, -⟩ := h.waits ht hd
    exact .inr ⟨body, hl, hP, htick⟩

/-- The clock may advance. -/
theorem Steady.advance (h : c.Steady P) (time : Rat) :
    ({ c with time, tick := c.tick + 1 } : Scheduler Rat β).Steady P where
  idle := h.idle
  orderly :=
    ⟨h.orderly.nodup, h.orderly.bound, fun id t ht hd => by
      obtain ⟨body, hl, hP, htick, hlive⟩ := h.waits ht hd
      exact .inr ⟨⟨body, hl, hP, Nat.le_succ_of_le htick⟩, hlive⟩⟩

/-- A task may be brought to where its body keeps to itself again. -/
theorem Steady.bring (h : c.Steady P) {left : Option β} {due : Rat} {tick : Nat}
    (hid : id ∈ c.live) (hleft : ∀ rest, left = some rest → P rest due) (htick : tick ≤ c.tick) :
    (c.modify id (Task.bring left due tick)).Steady P where
  idle := h.idle.modify fun u => by cases left <;> simp [Task.bring]
  orderly := h.orderly.modify id fun u hu hd => by
    cases left with
    | none => cases hd
    | some rest => exact .inr ⟨⟨rest, Task.left?_bring .., hleft rest rfl, htick⟩, hid⟩

/-- A task may be ended. -/
theorem Steady.end_task (h : c.Steady P) {f : Task Rat β → Task Rat β}
    (hdone : ∀ t, c.task? id = some t → (f t).done = true)
    (hbody : ∀ t, c.task? id = some t → (f t).body ≠ .running) : (c.modify id f).Steady P where
  idle j u hu := by
    rw [task?_modify] at hu
    split at hu
    · next hj =>
      subst hj
      obtain ⟨t, ht, rfl⟩ := Option.map_eq_some_iff.1 hu
      exact hbody t ht
    · exact h.idle j u hu
  orderly := h.orderly.modify id fun u hu hd => by
    rw [hdone u hu] at hd
    cases hd

/-- Tasks that are done may be forgotten. -/
theorem Steady.sweep (h : c.Steady P) :
    ({ c with live := c.live.filter fun id => !c.isDone id } : Scheduler Rat β).Steady P :=
  ⟨h.idle, h.orderly.sweep⟩

end Scheduler

namespace Host
variable {σ τ β : Type}

/-! ## The record makes no difference -/

/-- Beside a record the same is done. -/
def Mirrors {ρ : Type} (f' : σ × ρ → Attempt (σ × ρ) Misfit) (f : σ → Attempt σ Misfit) : Prop :=
  ∀ s log, ∃ log', f' (s, log) = (((f s).1, log'), (f s).2)

/-- A body is run in the same way, with something recorded. -/
def Records {ρ : Type} (run' : β → σ × ρ → (σ × ρ) × Outcome τ β) (run : β → σ → σ × Outcome τ β) :
    Prop :=
  ∀ body s log, ∃ log', run' body (s, log) = (((run body s).1, log'), (run body s).2)

section
variable {ρ : Type} {f' g' : σ × ρ → Attempt (σ × ρ) Misfit} {f g : σ → Attempt σ Misfit}

theorem Mirrors.andThen (hf : Mirrors f' f) (hg : Mirrors g' g) :
    Mirrors (fun w => (f' w).andThen g') fun s => (f s).andThen g := by
  intro s log
  obtain ⟨log', hlog'⟩ := hf s log
  obtain ⟨⟨s', e⟩, hfs⟩ : ∃ r, f s = r := ⟨_, rfl⟩
  rw [hfs] at hlog'
  cases e with
  | none =>
    obtain ⟨log'', hlog''⟩ := hg s' log'
    exact ⟨log'', by simp only [hfs, hlog', Attempt.andThen_none, hlog'']⟩
  | some e =>
    refine ⟨log', ?_⟩
    simp only [hfs, hlog']
    rfl

theorem Mirrors.inTurn {α : Type} {f' : α → σ × ρ → Attempt (σ × ρ) Misfit}
    {f : α → σ → Attempt σ Misfit} (hf : ∀ x, Mirrors (f' x) (f x)) (xs : List α) :
    Mirrors (Attempt.inTurn f' xs) (Attempt.inTurn f xs) := by
  induction xs with
  | nil => exact fun s log => ⟨log, rfl⟩
  | cons x xs ih => exact (hf x).andThen ih

/-- What is done without a record follows from what is done beside one. -/
theorem Mirrors.without (hf : Mirrors f' f) {s s' : σ} {log log' : ρ}
    {e : Option Misfit} (hrun : f' (s, log) = ((s', log'), e)) : f s = (s', e) := by
  obtain ⟨log'', hlog''⟩ := hf s log
  rw [hrun] at hlog''
  injection hlog'' with hworld he
  injection hworld with hs
  exact Prod.ext hs.symm he.symm

end

section
variable [Clock τ] {ρ : Type} (h : Host σ τ β) {run : β → σ → σ × Outcome τ β}
  {run' : β → σ × ρ → (σ × ρ) × Outcome τ β}

theorem Records.resume (hrun : Records run' run) (id : TaskId) :
    Mirrors ((h.beside ρ).resume run' id) (h.resume run id) := by
  intro s log
  simp only [Host.resume, show (h.beside ρ).scheduler (s, log) = h.scheduler s from rfl]
  cases (h.scheduler s).task? id with
  | none => exact ⟨log, rfl⟩
  | some t =>
    cases hb : t.body with
    | running => exact ⟨log, by simp only [hb]; rfl⟩
    | ended => exact ⟨log, by simp only [hb]; rfl⟩
    | suspended rest =>
      obtain ⟨s₁, hs₁⟩ : ∃ s₁, h.modify (·.modify id fun t => { t with body := .running }) s = s₁ :=
        ⟨_, rfl⟩
      have hbeside : (h.beside ρ).modify (·.modify id fun t => { t with body := .running })
          (s, log) = (s₁, log) := congrArg (·, log) hs₁
      obtain ⟨log', hlog'⟩ := hrun rest s₁ log
      simp only [hb, hs₁, hbeside, hlog']
      exact ⟨_, settle_beside h id _ _ _ _ _⟩

theorem Records.runDue (hrun : Records run' run) (id : TaskId) (fuel : Nat) :
    Mirrors ((h.beside ρ).runDue run' id fuel) (h.runDue run id fuel) := by
  induction fuel with
  | zero => exact fun s log => ⟨log, rfl⟩
  | succ fuel ih =>
    intro s log
    simp only [Host.runDue, show (h.beside ρ).scheduler (s, log) = h.scheduler s from rfl]
    cases (h.scheduler s).task? id with
    | none => exact ⟨log, rfl⟩
    | some t =>
      simp only
      split
      · exact (hrun.resume h id).andThen ih s log
      · exact ⟨log, rfl⟩

/-- The same is done in an update if something is recorded in the runs. -/
theorem Records.update (hrun : Records run' run) (rounds : β → Nat) (dt : τ) :
    Mirrors ((h.beside ρ).update run' rounds dt) (h.update run rounds dt) := by
  intro s log
  simp only [Host.update, show (h.beside ρ).scheduler (s, log) = h.scheduler s from rfl]
  cases Clock.add (h.scheduler s).time dt with
  | error e => exact ⟨log, rfl⟩
  | ok time =>
    have hserve (id : TaskId) : Mirrors
        (fun w => (h.beside ρ).runDue run' id ((h.beside ρ).roundsLeft rounds id w) w)
        fun s => h.runDue run id (h.roundsLeft rounds id s) s :=
      fun s log => hrun.runDue h id _ s log
    have hsweep : Mirrors (fun w => ((h.beside ρ).sweep w, none)) fun s => (h.sweep s, none) :=
      fun s log => ⟨log, rfl⟩
    exact ((Mirrors.inTurn hserve _).andThen hsweep) _ log

end

theorem records_logging (h : Host σ τ β) (run : β → σ → σ × Outcome τ β) :
    Records (h.logging run) run := fun _ _ _ => ⟨_, rfl⟩

section
variable [Clock τ] (h : Host σ τ β) (run : β → σ → σ × Outcome τ β)

theorem resume_mirrors (id : TaskId) :
    Mirrors (h.logged.resume (h.logging run) id) (h.resume run id) :=
  (records_logging h run).resume h id

end

/-! ## Updates -/

section
variable {h : Host σ Rat β} {run : β → σ → σ × Outcome Rat β} {turn : β → Outcome Rat β}
  {P : β → Rat → Prop} {rounds : β → Nat} {dt : Rat} {s : σ}

theorem Leads.keeps {body : β} {due due' : Rat} {left : Option β}
    (hleads : Leads turn P body due left due') (rest : β) (hleft : left = some rest) :
    P rest due' := by
  cases hleads with
  | out => cases hleft
  | on _ _ hrest =>
    cases hleft
    exact hrest

/-- An update leaves a steady scheduler behind, whether its rounds are enough or not. -/
theorem steady_update (hh : h.Lawful) (hp : h.Paced run turn P) (hs : (h.scheduler s).Steady P)
    (rounds : β → Nat) (dt : Rat) :
    (h.scheduler (h.update run rounds dt s).1).Steady P := by
  refine update_keeps (J := fun s => (h.scheduler s).Steady P) h run rounds dt hs ?_ ?_ ?_
  · intro time _
    rw [hh.scheduler_modify]
    exact hs.advance time
  · intro s id t hs ht hd _
    obtain ⟨body, hl, hP, htick, hlive⟩ := hs.waits ht hd
    obtain ⟨left, due, hleads⟩ := hp.leads hP
    obtain ⟨s', tick, hresume, hs', htick'⟩ := resume_leads hh hp hs.idle ht hl hP hleads []
    rw [(resume_mirrors h run id).without hresume, hs']
    exact hs.bring hlive hleads.keeps (by omega)
  · intro s hs
    unfold Host.sweep
    rw [hh.scheduler_modify]
    exact hs.sweep

end

end Host
end VisualNovel
