import VisualNovel.Proofs.Scheduler.Updates
/-!
# What tasks that keep to themselves can be brought to

From a scheduler without tasks, tasks that keep to themselves can be started, and time can pass, by
any steps; tasks can be cancelled between two updates, and what is beside the scheduler can change in
any way (`Host.Reached`). Whatever is reached so is steady (`Reached.steady`).
-/
namespace VisualNovel

namespace Scheduler
variable {τ β : Type} {P : β → Rat → Prop} {c : Scheduler Rat β} {id : TaskId}

/-- A task that is ended is done, and those that were done stay so. -/
theorem isDone_modify {c : Scheduler τ β} {f : Task τ β → Task τ β}
    (hdone : ∀ t, c.task? id = some t → (f t).done = true) :
    (c.modify id f).isDone id = true ∧
      ∀ j, c.isDone j = true → (c.modify id f).isDone j = true := by
  have hself : (c.modify id f).isDone id = true := by
    unfold isDone
    rw [task?_modify_self]
    cases ht : c.task? id with
    | none => rfl
    | some t => exact hdone t ht
  refine ⟨hself, fun j hj => ?_⟩
  by_cases hne : j = id
  · rw [hne]
    exact hself
  · unfold isDone
    rw [task?_modify_of_ne c f hne]
    exact hj

/-- A new task that is being run is settled: nothing else is being run. -/
theorem Idle.settleNew {c : Scheduler τ β} (h : c.Idle) (name : Json) {f : Task τ β → Task τ β}
    (hf : ∀ t, (f t).body ≠ .running) : ((c.enrol name).modify c.tasks.length f).Idle := by
  intro j u hu
  rw [task?_modify] at hu
  split at hu
  · obtain ⟨t, -, rfl⟩ := Option.map_eq_some_iff.1 hu
    exact hf t
  · next hne =>
    rcases Nat.lt_or_gt_of_ne hne with hgt | hlt
    · rw [task?_enrol_of_gt hgt] at hu
      cases hu
    · rw [task?_enrol_of_lt hlt] at hu
      exact h j u hu

/-- All live tasks may be forgotten once they are done. -/
theorem Steady.forget (h : c.Steady P) (hdone : ∀ id ∈ c.live, c.isDone id = true) :
    ({ c with live := [] } : Scheduler Rat β).Steady P where
  idle := h.idle
  orderly := by
    refine ⟨List.nodup_nil, by simp, fun id t ht hd => ?_⟩
    obtain ⟨-, -, -, -, hlive⟩ := h.waits ht hd
    have htask : c.task? id = some t := ht
    have hend := hdone id hlive
    rw [isDone_of_task? htask, hd] at hend
    cases hend

end Scheduler

namespace Host
variable {σ β : Type} {h : Host σ Rat β} {run : β → σ → σ × Outcome Rat β}
  {turn : β → Outcome Rat β} {P : β → Rat → Prop} {s : σ}

/-- What can be brought about, from a scheduler without tasks, with tasks that keep to themselves. -/
inductive Reached (h : Host σ Rat β) (run : β → σ → σ × Outcome Rat β) (P : β → Rat → Prop) :
    σ → Prop
  | fresh {w : σ} (hw : h.scheduler w = .empty) : Reached h run P w
  | beside {w w' : σ} (hw : Reached h run P w) (hsame : h.scheduler w' = h.scheduler w) :
      Reached h run P w'
  | start {w : σ} (name : Json) (body : β) (hw : Reached h run P w)
      (hP : P body (h.scheduler w).time) : Reached h run P (h.start name (run body) w).1.1
  | update {w : σ} (rounds : β → Nat) (dt : Rat) (hw : Reached h run P w) :
      Reached h run P (h.update run rounds dt w).1
  | cancel {w : σ} (id : TaskId) (hw : Reached h run P w) : Reached h run P (h.cancel id w).1
  | cancelAll {w : σ} (hw : Reached h run P w) : Reached h run P (h.cancelAll w).1

/-! ## Starting -/

/-- A task that keeps to itself is started without breaking off. If it suspends, it waits where an
update finds it. -/
theorem steady_start (hh : h.Lawful) (hp : h.Paced run turn P) (hs : (h.scheduler s).Steady P)
    (name : Json) {body : β} (hP : P body (h.scheduler s).time) :
    ∃ s', h.start name (run body) s = ((s', none), (h.scheduler s).tasks.length) ∧
      (h.scheduler s').Steady P := by
  obtain ⟨s₁, hs₁⟩ : ∃ s₁, h.modify (·.enrol name) s = s₁ := ⟨_, rfl⟩
  have henrol : h.scheduler s₁ = (h.scheduler s).enrol name := by
    rw [← hs₁, hh.scheduler_modify]
  have hrun := (hp.scheduler body (h.scheduler s).time s₁ hP).trans henrol
  have hnew : (h.scheduler (run body s₁).1).task? (h.scheduler s).tasks.length =
      some { name, body := .running, wakeTime := (h.scheduler s).time } := by
    rw [hrun]
    exact Scheduler.task?_enrol_new _ name
  obtain ⟨left, due, hleads⟩ := hp.leads hP
  obtain ⟨s₃, tick, hsettle, hs₃, htick⟩ := settle_leads hh hleads hnew rfl (h.scheduler s).tick
  rw [hrun] at hs₃
  have hidle : (h.scheduler s₃).Idle := by
    rw [hs₃]
    exact hs.idle.settleNew name fun u => by cases left <;> simp [Task.bring]
  have hdone : (h.scheduler s₃).isDone (h.scheduler s).tasks.length = left.isNone := by
    unfold Scheduler.isDone
    rw [hs₃, Scheduler.task?_modify_self, Scheduler.task?_enrol_new]
    rfl
  have hstart : h.start name (run body) s =
      if (h.scheduler s₃).isDone (h.scheduler s).tasks.length then
        ((s₃, none), (h.scheduler s).tasks.length)
      else
        ((h.modify (·.enlist (h.scheduler s).tasks.length) s₃, none),
          (h.scheduler s).tasks.length) := by
    have hbegin : h.modify (fun c => { c with
        tasks := c.tasks ++ [{ name, body := .running, wakeTime := c.time }] }) s = s₁ := hs₁
    unfold start
    simp only [hbegin, hp.outcome body (h.scheduler s).time s₁ hP, hsettle]
    rfl
  cases left with
  | none =>
    refine ⟨s₃, by rw [hstart, hdone]; rfl, hidle, ?_⟩
    rw [hs₃]
    exact (hs.orderly.enrol name).modify _ fun u hu hd => by cases hd
  | some rest =>
    refine ⟨_, by rw [hstart, hdone]; rfl, ?_⟩
    rw [hh.scheduler_modify]
    refine ⟨hidle, ?_⟩
    rw [hs₃]
    refine (hs.orderly.enrol name).settleNew (Scheduler.task?_enrol_new _ name)
      (Scheduler.not_mem_live_enrol hs.orderly name) fun _ => ?_
    refine ⟨rest, Task.left?_bring .., hleads.keeps rest rfl, ?_⟩
    show tick ≤ (h.scheduler s).tick
    rcases htick with rfl | rfl
    · exact Nat.zero_le _
    · exact Nat.le_refl _

/-! ## Cancelling -/

/-- To cancel a task ends it, and no other task comes back to life. -/
theorem steady_cancel (hh : h.Lawful) (hs : (h.scheduler s).Steady P) (id : TaskId) :
    (h.scheduler (h.cancel id s).1).Steady P ∧
      (h.scheduler (h.cancel id s).1).live = (h.scheduler s).live ∧
      (h.scheduler (h.cancel id s).1).isDone id = true ∧
      ∀ j, (h.scheduler s).isDone j = true →
        (h.scheduler (h.cancel id s).1).isDone j = true := by
  have hmodify (f : Task Rat β → Task Rat β) (s' : σ)
      (hs' : h.scheduler s' = (h.scheduler s).modify id f)
      (hdone : ∀ t, (h.scheduler s).task? id = some t → (f t).done = true)
      (hbody : ∀ t, (h.scheduler s).task? id = some t → (f t).body ≠ .running) :
      (h.scheduler s').Steady P ∧ (h.scheduler s').live = (h.scheduler s).live ∧
        (h.scheduler s').isDone id = true ∧
        ∀ j, (h.scheduler s).isDone j = true → (h.scheduler s').isDone j = true := by
    obtain ⟨hself, hkeep⟩ := Scheduler.isDone_modify hdone
    rw [hs']
    exact ⟨hs.end_task hdone hbody, rfl, hself, hkeep⟩
  simp only [Host.cancel]
  cases ht : (h.scheduler s).task? id with
  | none =>
    refine ⟨hs, rfl, ?_, fun j hj => hj⟩
    unfold Scheduler.isDone
    rw [ht]
    rfl
  | some t =>
    simp only
    split
    · next hd => exact ⟨hs, rfl, by rw [Scheduler.isDone_of_task? ht, hd], fun j hj => hj⟩
    · cases hb : t.body with
      | running => exact absurd hb (hs.idle id t ht)
      | suspended rest =>
        refine hmodify _ _ (by rw [hh.scheduler_close, hh.scheduler_modify]) (fun _ _ => rfl)
          fun _ _ => by simp
      | ended =>
        refine hmodify _ _ (by rw [hh.scheduler_modify]) (fun _ _ => rfl) fun u hu => ?_
        rw [ht] at hu
        cases hu
        simp [hb]

theorem steady_cancelEach (hh : h.Lawful) (hs : (h.scheduler s).Steady P) (ids : List TaskId) :
    (h.scheduler (h.cancelEach ids s).1).Steady P ∧
      (h.scheduler (h.cancelEach ids s).1).live = (h.scheduler s).live ∧
      ((h.cancelEach ids s).2 = true →
        ∀ id ∈ ids, (h.scheduler (h.cancelEach ids s).1).isDone id = true) ∧
      ∀ j, (h.scheduler s).isDone j = true →
        (h.scheduler (h.cancelEach ids s).1).isDone j = true := by
  induction ids generalizing s with
  | nil => exact ⟨hs, rfl, by simp, fun j hj => hj⟩
  | cons id ids ih =>
    obtain ⟨hsteady, hlive, hself, hkeep⟩ := steady_cancel hh hs id
    simp only [cancelEach]
    obtain ⟨⟨s₁, free⟩, hcancel⟩ : ∃ r, h.cancel id s = r := ⟨_, rfl⟩
    rw [hcancel] at hsteady hlive hself hkeep ⊢
    cases free with
    | false => exact ⟨hsteady, hlive, by simp, hkeep⟩
    | true =>
      obtain ⟨hsteady', hlive', hall, hkeep'⟩ := ih hsteady
      refine ⟨hsteady', hlive'.trans hlive, fun hfree j hj => ?_, fun j hj => hkeep' j (hkeep j hj)⟩
      rcases List.mem_cons.1 hj with rfl | hj
      · exact hkeep' j hself
      · exact hall hfree j hj

theorem steady_cancelAll (hh : h.Lawful) (hs : (h.scheduler s).Steady P) :
    (h.scheduler (h.cancelAll s).1).Steady P := by
  obtain ⟨hsteady, hlive, hall, -⟩ := steady_cancelEach hh hs (h.scheduler s).live
  simp only [cancelAll]
  obtain ⟨⟨s₁, free⟩, heach⟩ : ∃ r, h.cancelEach (h.scheduler s).live s = r := ⟨_, rfl⟩
  rw [heach] at hsteady hlive hall ⊢
  cases free with
  | false => exact hsteady
  | true =>
    simp only [hh.scheduler_modify]
    exact hsteady.forget fun id hid => hall rfl id (hlive ▸ hid)

/-- What is reached is steady. -/
theorem Reached.steady (hh : h.Lawful) (hp : h.Paced run turn P) (hs : Reached h run P s) :
    (h.scheduler s).Steady P := by
  induction hs with
  | fresh hs =>
    rw [hs]
    exact Scheduler.steady_empty P
  | beside hs hsame ih =>
    rw [hsame]
    exact ih
  | start name body hs hP ih =>
    obtain ⟨s', hstart, hsteady⟩ := steady_start hh hp ih name hP
    rw [hstart]
    exact hsteady
  | update rounds dt hs ih => exact steady_update hh hp ih rounds dt
  | cancel id hs ih => exact (steady_cancel hh ih id).1
  | cancelAll hs ih => exact steady_cancelAll hh ih

end Host
end VisualNovel
