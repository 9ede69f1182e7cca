import VisualNovel.Proofs.Scheduler.Ledger
/-!
# What bodies do to a scheduler

While a body is run, and while one is closed, tasks may be started and cancelled, one inside the
other, and anything may happen beside the scheduler (`Host.Acts`). A task that is not done can be
cancelled even if it is being run. A host whose bodies do nothing else to the scheduler conducts
itself (`Host.Conduct`).

* `Host.Acts.sequel`: the tasks that were there before are left as they are or are cancelled, once;
  no task that is new is left being run.
* `Host.Acts.ledger`: if the notes of what is done are added, a ledger remains one.
-/
namespace VisualNovel
variable {σ τ β ρ : Type}

/-- What is left of a scheduler after notes were made while the clock stood still: tasks that were
there are as they were or have been cancelled, and those that are new are not being run. -/
structure Scheduler.Sequel (c : Scheduler Rat β) (new : List (Note Rat)) (c' : Scheduler Rat β) :
    Prop extends Widens c c' where
  time : c'.time = c.time
  tick : c'.tick = c.tick
  old : ∀ id t, c.task? id = some t → (c'.task? id = some t ∧ notesOf id new = []) ∨
    (t.done = false ∧ c'.task? id = some t.cancel ∧ notesOf id new = [c.note id .cancel])
  settled : ∀ id t, c.tasks.length ≤ id → c'.task? id = some t → t.body ≠ .running

/-- The first run of a task is settled, and the task is listed unless it is done. -/
def Scheduler.place (id : TaskId) (tick : Nat) (o : Outcome Rat β) (c : Scheduler Rat β) :
    Scheduler Rat β :=
  let c' := c.modify id (Task.settle tick o)
  if c'.isDone id then c' else c'.enlist id

theorem Ledger.place {es : List (Note Rat)} {c : Scheduler Rat β} {id : TaskId} {t : Task Rat β}
    (h : Ledger es c) (ht : c.task? id = some t) (hb : t.body = .running) (hid : id ∉ c.live)
    (o : Outcome Rat β) : Ledger (es ++ [c.note id o.happening]) (c.place id c.tick o) := by
  have hdone : (c.modify id (Task.settle c.tick o)).isDone id = (t.settle c.tick o).done :=
    Scheduler.isDone_modify_self ht _
  unfold Scheduler.place
  simp only [hdone]
  split
  · next hd => exact h.settleDone ht hb hd
  · next hd => exact h.settleNew ht hb hid (Bool.eq_false_iff.2 hd)

namespace Host

/-- The scheduler is a part of the world of its own, and reports leave it alone. -/
structure Stores (h : Host σ τ β) : Prop where
  scheduler_withScheduler : ∀ c s, h.scheduler (h.withScheduler c s) = c
  scheduler_report : ∀ m s, h.scheduler (h.report m s) = h.scheduler s

theorem Lawful.stores {h : Host σ τ β} (hh : h.Lawful) : h.Stores :=
  ⟨hh.scheduler_withScheduler, hh.scheduler_report⟩

theorem Stores.scheduler_modify {h : Host σ τ β} (hh : h.Stores)
    (f : Scheduler τ β → Scheduler τ β) (s : σ) : h.scheduler (h.modify f s) = f (h.scheduler s) :=
  hh.scheduler_withScheduler _ _

/-- One may come from a world to another by starting and cancelling tasks, with these notes. What
the first run of a task does, and what a body does that is closed, comes in between. -/
inductive Acts (h : Host σ Rat β) : List (Note Rat) → σ → σ → Prop
  | refl (s : σ) : Acts h [] s s
  | beside {new : List (Note Rat)} {s s₁ s' : σ} (hsame : h.scheduler s₁ = h.scheduler s)
      (hlater : Acts h new s₁ s') : Acts h new s s'
  | start {inner later : List (Note Rat)} {s s' : σ} (name : Json) (run : σ → σ × Outcome Rat β)
      (hrun : Acts h inner (h.modify (·.enrol name) s) (run (h.modify (·.enrol name) s)).1)
      (hlater : Acts h later (h.start name run s).1.1 s') :
      Acts h (((h.scheduler s).note (h.scheduler s).tasks.length .start :: inner ++
        [(h.scheduler s).note (h.scheduler s).tasks.length
          (run (h.modify (·.enrol name) s)).2.happening]) ++ later) s s'
  | cancel {inner later : List (Note Rat)} {s s' : σ} {id : TaskId} {t : Task Rat β}
      (ht : (h.scheduler s).task? id = some t) (hd : t.done = false)
      (hclose : Acts h inner (h.modify (·.modify id Task.cancel) s) (h.cancel id s).1)
      (hlater : Acts h later (h.cancel id s).1 s') :
      Acts h (((h.scheduler s).note id .cancel :: inner) ++ later) s s'

/-- What the bodies of a host do to the scheduler: they start and cancel tasks, with these notes. -/
structure Conduct (h : Host σ Rat β) (run : β → σ → σ × Outcome Rat β) where
  notes : β → σ → List (Note Rat)
  acts : ∀ body s, h.Acts (notes body s) s (run body s).1

/-! ## One operation -/

section
variable {h : Host σ Rat β} {s : σ} {id : TaskId} {t : Task Rat β}

/-- The end of a run is settled without breaking off. -/
theorem settle_eq (hh : h.Stores) (ht : (h.scheduler s).task? id = some t) (tick : Nat)
    (o : Outcome Rat β) : ∃ s', h.settle id t.wakeTime tick o s = (s', none) ∧
      h.scheduler s' = (h.scheduler s).modify id (Task.settle tick o) := by
  cases o with
  | finish => exact ⟨_, rfl, hh.scheduler_modify _ s⟩
  | fail =>
    refine ⟨_, rfl, ?_⟩
    unfold fail
    rw [hh.scheduler_modify, hh.scheduler_report]
    rfl
  | suspend r rest =>
    obtain ⟨s₁, hs₁⟩ :
        ∃ s₁, h.modify (·.modify id fun t => { t with body := .suspended rest }) s = s₁ := ⟨_, rfl⟩
    have hsuspend : h.scheduler s₁ =
        (h.scheduler s).modify id fun t => { t with body := .suspended rest } := by
      rw [← hs₁, hh.scheduler_modify]
    have hdone : (h.scheduler s₁).isDone id = t.done := by
      rw [hsuspend]
      exact Scheduler.isDone_modify_self ht _
    simp only [settle, suspend, hs₁, hdone, Request.wakeTime_eq]
    cases hd : t.done with
    | true =>
      refine ⟨s₁, rfl, hsuspend.trans (Scheduler.modify_congr ht ?_)⟩
      rw [Task.settle_suspend, hd]
      rfl
    | false =>
      refine ⟨_, rfl, ?_⟩
      rw [hh.scheduler_modify, hsuspend, Scheduler.modify_modify]
      refine Scheduler.modify_congr ht ?_
      rw [Task.settle_suspend, hd]
      rfl

/-- The end of a run is settled by a change to the scheduler and maybe a report. -/
theorem settle_same {π : σ → ρ} (hscheduler : ∀ c s, π (h.withScheduler c s) = π s)
    (hreport : ∀ m s, π (h.report m s) = π s) (due : Rat) (tick : Nat) (o : Outcome Rat β) :
    π (h.settle id due tick o s).1 = π s := by
  cases o with
  | finish => exact hscheduler _ s
  | fail => exact (hscheduler _ _).trans (hreport _ s)
  | suspend r rest =>
    simp only [settle, suspend, Request.wakeTime_eq]
    split
    · exact hscheduler _ s
    · exact (hscheduler _ _).trans (hscheduler _ s)

/-- A task is started without breaking off, and its first run is settled. -/
theorem start_eq (hh : h.Stores) {name : Json} {run : σ → σ × Outcome Rat β} {s₂ : σ}
    {o : Outcome Rat β} (hrun : run (h.modify (·.enrol name) s) = (s₂, o))
    (ht : (h.scheduler s₂).task? (h.scheduler s).tasks.length = some t)
    (hwake : t.wakeTime = (h.scheduler s).time) :
    ∃ s', h.start name run s = ((s', none), (h.scheduler s).tasks.length) ∧ h.scheduler s' =
      (h.scheduler s₂).place (h.scheduler s).tasks.length (h.scheduler s).tick o := by
  obtain ⟨s₃, hsettle, hs₃⟩ := settle_eq hh ht (h.scheduler s).tick o
  have hbegin : run (h.modify (fun c => { c with
      tasks := c.tasks ++ [{ name, body := .running, wakeTime := c.time }] }) s) = (s₂, o) := hrun
  rw [hwake] at hsettle
  unfold Scheduler.place
  simp only [start, hbegin, hsettle, ← hs₃]
  split
  · exact ⟨s₃, rfl, rfl⟩
  · exact ⟨_, rfl, hh.scheduler_modify _ s₃⟩

/-- A task that is not done is cancelled, and nothing is left of its body. -/
theorem scheduler_cancel (hh : h.Lawful) (id : TaskId) (s : σ) :
    h.scheduler (h.cancel id s).1 =
      (h.scheduler s).modify id fun t => if t.done then t else t.cancel := by
  unfold Host.cancel
  cases ht : (h.scheduler s).task? id with
  | none =>
    unfold Scheduler.modify
    rw [List.modify_eq_self (List.getElem?_eq_none_iff.1 ht)]
  | some t =>
    cases hd : t.done with
    | true =>
      simp only [hd, if_true]
      exact (Scheduler.modify_eq_self ht (by rw [hd]; rfl)).symm
    | false =>
      simp only [hd, Bool.false_eq_true, if_false]
      cases hb : t.body with
      | suspended rest =>
        simp only
        rw [hh.scheduler_close, hh.scheduler_modify]
        exact Scheduler.modify_congr ht (by simp [Task.cancel, hb, hd])
      | running | ended =>
        simp only
        rw [hh.scheduler_modify]
        exact Scheduler.modify_congr ht (by simp [Task.cancel, hb, hd])

end

end Host

/-! ## Sequels -/

namespace Scheduler.Sequel
variable {c c' c'' : Scheduler Rat β} {new new' : List (Note Rat)} {id : TaskId} {t : Task Rat β}

theorem refl (c : Scheduler Rat β) : c.Sequel [] c where
  toWidens := .refl c
  time := rfl
  tick := rfl
  old _ _ ht := .inl ⟨ht, rfl⟩
  settled id t hid ht := by
    rw [task?_none_of_le hid] at ht
    cases ht

theorem trans (h : c.Sequel new c') (h' : c'.Sequel new' c'') : c.Sequel (new ++ new') c'' where
  toWidens := h.toWidens.trans h'.toWidens
  time := h'.time.trans h.time
  tick := h'.tick.trans h.tick
  old id t ht := by
    have hnote : c'.note id .cancel = c.note id .cancel := by
      unfold note
      rw [h.time, h.tick]
    rw [notesOf_append]
    rcases h.old id t ht with ⟨ht', hn⟩ | ⟨hd, ht', hn⟩
    · rcases h'.old id t ht' with ⟨ht'', hn'⟩ | ⟨hd, ht'', hn'⟩
      · exact .inl ⟨ht'', by rw [hn, hn']; rfl⟩
      · exact .inr ⟨hd, ht'', by rw [hn, hn', hnote]; rfl⟩
    · -- What has been cancelled is not cancelled again.
      rcases h'.old id _ ht' with ⟨ht'', hn'⟩ | ⟨hd', -, -⟩
      · exact .inr ⟨hd, ht'', by rw [hn, hn']; rfl⟩
      · cases hd'
  settled id t hid ht := by
    rcases Nat.lt_or_ge id c'.tasks.length with hlt | hge
    · obtain ⟨t', ht'⟩ := exists_task? hlt
      have hb := h.settled id t' hid ht'
      rcases h'.old id t' ht' with ⟨ht'', -⟩ | ⟨-, ht'', -⟩
      · rw [ht''] at ht
        cases ht
        exact hb
      · rw [ht''] at ht
        cases ht
        exact fun hr => hb (t'.cancel_running_iff.1 hr)
    · exact h'.settled id t hge ht

/-- What was being run still is, and is due when it was. -/
theorem running (h : c.Sequel new c') (ht : c.task? id = some t) (hb : t.body = .running) :
    ∃ t', c'.task? id = some t' ∧ t'.body = .running ∧ t'.wakeTime = t.wakeTime := by
  rcases h.old id t ht with ⟨ht', -⟩ | ⟨-, ht', -⟩
  · exact ⟨t, ht', hb, rfl⟩
  · exact ⟨t.cancel, ht', t.cancel_running_iff.2 hb, rfl⟩

theorem cancelOne (ht : c.task? id = some t) (hd : t.done = false) :
    c.Sequel [c.note id .cancel] (c.modify id Task.cancel) where
  toWidens := .modify c id Task.cancel
  time := rfl
  tick := rfl
  old j u hu := by
    rw [Ledger.notesOf_note]
    by_cases hj : id = j
    · subst hj
      rw [ht] at hu
      cases hu
      exact .inr ⟨hd, by rw [task?_modify_self, ht]; rfl, if_pos rfl⟩
    · exact .inl ⟨by rw [task?_modify_of_ne c _ (Ne.symm hj)]; exact hu, if_neg hj⟩
  settled j u hj hu := by
    have hlen : (c.modify id Task.cancel).tasks.length = c.tasks.length := List.length_modify ..
    rw [task?_none_of_le (hlen ▸ hj)] at hu
    cases hu

/-- A task is changed that is new, and it may be listed. -/
theorem settleNew {name : Json} (h : (c.enrol name).Sequel new c') {what : Happening Rat}
    {f : Task Rat β → Task Rat β} (hf : ∀ t, (f t).body ≠ .running) {live : List TaskId}
    (hlive : live = c'.live ∨ live = c'.live ++ [c.tasks.length]) :
    c.Sequel (c.note c.tasks.length .start :: new ++ [c.note c.tasks.length what])
      { c'.modify c.tasks.length f with live } where
  size := by
    have hlen : (c'.modify c.tasks.length f).tasks.length = c'.tasks.length := List.length_modify ..
    show c.tasks.length ≤ (c'.modify c.tasks.length f).tasks.length
    rw [hlen]
    exact ((Widens.enrol c name).trans h.toWidens).size
  live := by
    have hwidens : c.Widens c' := (Widens.enrol c name).trans h.toWidens
    rcases hlive with rfl | rfl
    · exact hwidens.live
    · exact (hwidens.enlist (Nat.le_refl c.tasks.length)).live
  time := h.time
  tick := h.tick
  old j u hu := by
    have hlt := task?_lt hu
    have hne : ¬c.tasks.length = j := Nat.ne_of_gt hlt
    have htask :
        ({ c'.modify c.tasks.length f with live } : Scheduler Rat β).task? j = c'.task? j :=
      task?_modify_of_ne c' f (Ne.symm hne)
    have hnotes : notesOf j (c.note c.tasks.length .start :: new ++ [c.note c.tasks.length what]) =
        notesOf j new := by
      rw [List.cons_append, notesOf_cons_of_ne hne, notesOf_append, Ledger.notesOf_note, if_neg hne,
        List.append_nil]
    rw [htask, hnotes]
    exact h.old j u ((task?_enrol_of_lt hlt).trans hu)
  settled j u hj hu := by
    have hu' : (c'.modify c.tasks.length f).task? j = some u := hu
    rcases Nat.eq_or_lt_of_le hj with rfl | hlt
    · rw [task?_modify_self] at hu'
      obtain ⟨t, -, rfl⟩ := Option.map_eq_some_iff.1 hu'
      exact hf t
    · rw [task?_modify_of_ne c' f (Nat.ne_of_gt hlt)] at hu'
      refine h.settled j u ?_ hu'
      have hlen : (c.enrol name).tasks.length = c.tasks.length + 1 := by simp [Scheduler.enrol]
      omega

/-- A task is started, and its first run is settled. -/
theorem place {name : Json} (h : (c.enrol name).Sequel new c') (tick : Nat) (o : Outcome Rat β) :
    c.Sequel (c.note c.tasks.length .start :: new ++ [c.note c.tasks.length o.happening])
      (c'.place c.tasks.length tick o) := by
  have hf (t : Task Rat β) := t.settle_ne_running tick o
  unfold Scheduler.place
  simp only
  split
  · exact h.settleNew hf (.inl rfl)
  · exact h.settleNew hf (.inr rfl)

end Scheduler.Sequel

/-! ## What is done one thing after the other -/

namespace Host.Acts
variable {h : Host σ Rat β} {new new' : List (Note Rat)} {s s' s'' : σ}

theorem trans (hs : h.Acts new s s') (hs' : h.Acts new' s' s'') : h.Acts (new ++ new') s s'' := by
  induction hs with
  | refl => exact hs'
  | beside hsame _ ih => exact .beside hsame (ih hs')
  | start name run hrun _ _ ih =>
    rw [List.append_assoc]
    exact .start name run hrun (ih hs')
  | cancel ht hd hclose _ _ ih =>
    rw [List.append_assoc]
    exact .cancel ht hd hclose (ih hs')

/-- The first run of a new task has been settled. -/
theorem started (hh : h.Stores) {inner : List (Note Rat)} {name : Json}
    {run : σ → σ × Outcome Rat β} {s₂ : σ} {o : Outcome Rat β}
    (hrun : run (h.modify (·.enrol name) s) = (s₂, o))
    (hinner : ((h.scheduler s).enrol name).Sequel inner (h.scheduler s₂)) :
    (∃ t, (h.scheduler s₂).task? (h.scheduler s).tasks.length = some t ∧ t.body = .running) ∧
      h.scheduler (h.start name run s).1.1 =
        (h.scheduler s₂).place (h.scheduler s).tasks.length (h.scheduler s).tick o := by
  obtain ⟨t, ht, hb, hwake⟩ := hinner.running (Scheduler.task?_enrol_new (h.scheduler s) name) rfl
  obtain ⟨s', hstart, hs'⟩ := start_eq hh hrun ht hwake
  refine ⟨⟨t, ht, hb⟩, ?_⟩
  rw [hstart]
  exact hs'

/-- Tasks that were there before are as they were or have been cancelled. -/
theorem sequel (hh : h.Stores) (hs : h.Acts new s s') :
    (h.scheduler s).Sequel new (h.scheduler s') := by
  induction hs with
  | refl s => exact .refl _
  | beside hsame _ ih =>
    rw [← hsame]
    exact ih
  | @start inner later s s' name run _ _ ihrun ihlater =>
    rw [hh.scheduler_modify] at ihrun
    obtain ⟨⟨s₂, o⟩, hs₂⟩ : ∃ r, run (h.modify (·.enrol name) s) = r := ⟨_, rfl⟩
    rw [hs₂] at ihrun ⊢
    obtain ⟨-, hstart⟩ := started hh hs₂ ihrun
    rw [hstart] at ihlater
    exact (ihrun.place _ o).trans ihlater
  | @cancel inner later s s' id t ht hd _ _ ihclose ihlater =>
    rw [hh.scheduler_modify] at ihclose
    exact ((Scheduler.Sequel.cancelOne ht hd).trans ihclose).trans ihlater

/-- What is done, with its notes, leads from a ledger to a ledger. -/
theorem ledger (hh : h.Stores) (hs : h.Acts new s s') {es : List (Note Rat)}
    (hes : Ledger es (h.scheduler s)) : Ledger (es ++ new) (h.scheduler s') := by
  induction hs generalizing es with
  | refl s => rwa [List.append_nil]
  | beside hsame _ ih => exact ih (by rwa [hsame])
  | @start inner later s s' name run hrun _ ihrun ihlater =>
    have hinner := hrun.sequel hh
    rw [hh.scheduler_modify] at hinner
    have hledger := ihrun (by rw [hh.scheduler_modify]; exact hes.enrol name)
    obtain ⟨⟨s₂, o⟩, hs₂⟩ : ∃ r, run (h.modify (·.enrol name) s) = r := ⟨_, rfl⟩
    rw [hs₂] at hinner hledger ⊢
    obtain ⟨⟨t, ht, hb⟩, hstart⟩ := started hh hs₂ hinner
    have hsettled := hledger.place ht hb (hinner.toWidens.not_mem_live hes.listed) o
    have htime : (h.scheduler s₂).time = (h.scheduler s).time := hinner.time
    have htick : (h.scheduler s₂).tick = (h.scheduler s).tick := hinner.tick
    have hnote : (h.scheduler s₂).note (h.scheduler s).tasks.length o.happening =
        (h.scheduler s).note (h.scheduler s).tasks.length o.happening := by
      unfold Scheduler.note
      rw [htime, htick]
    rw [hnote, htick, ← hstart] at hsettled
    simpa using ihlater hsettled
  | @cancel inner later s s' id t ht hd _ _ ihclose ihlater =>
    have hledger := ihlater (ihclose (by rw [hh.scheduler_modify]; exact hes.cancel ht hd))
    simpa using hledger

/-! ## Single acts -/

theorem rest (hsame : h.scheduler s' = h.scheduler s) : h.Acts [] s s' := .beside hsame (.refl s')

/-- At last something may happen beside the scheduler. -/
theorem aside (hs : h.Acts new s s') (hsame : h.scheduler s'' = h.scheduler s') :
    h.Acts new s s'' := by
  have hall := hs.trans (.rest hsame)
  rwa [List.append_nil] at hall

theorem startOne {inner : List (Note Rat)} (name : Json) (run : σ → σ × Outcome Rat β)
    (hrun : h.Acts inner (h.modify (·.enrol name) s) (run (h.modify (·.enrol name) s)).1) :
    h.Acts ((h.scheduler s).note (h.scheduler s).tasks.length .start :: inner ++
      [(h.scheduler s).note (h.scheduler s).tasks.length
        (run (h.modify (·.enrol name) s)).2.happening]) s (h.start name run s).1.1 := by
  simpa using Acts.start name run hrun (.refl _)

/-- A task is started without breaking off. -/
theorem start_none (hh : h.Stores) {inner : List (Note Rat)} (name : Json)
    (run : σ → σ × Outcome Rat β)
    (hrun : h.Acts inner (h.modify (·.enrol name) s) (run (h.modify (·.enrol name) s)).1) :
    (h.start name run s).1.2 = none := by
  have hinner := hrun.sequel hh
  rw [hh.scheduler_modify] at hinner
  obtain ⟨⟨s₂, o⟩, hs₂⟩ : ∃ r, run (h.modify (·.enrol name) s) = r := ⟨_, rfl⟩
  rw [hs₂] at hinner
  obtain ⟨t, ht, -, hwake⟩ := hinner.running (Scheduler.task?_enrol_new (h.scheduler s) name) rfl
  obtain ⟨s', hstart, -⟩ := start_eq hh hs₂ ht hwake
  rw [hstart]

/-- A task is cancelled by a host whose bodies leave the scheduler alone when they are closed. -/
theorem cancelOne (hh : h.Lawful) {id : TaskId} {t : Task Rat β}
    (ht : (h.scheduler s).task? id = some t) (hd : t.done = false) :
    h.Acts [(h.scheduler s).note id .cancel] s (h.cancel id s).1 := by
  have hcancel : h.scheduler (h.cancel id s).1 =
      h.scheduler (h.modify (·.modify id Task.cancel) s) := by
    rw [hh.scheduler_modify, scheduler_cancel hh]
    exact Scheduler.modify_congr ht (by rw [hd]; rfl)
  simpa using Acts.cancel ht hd (.rest hcancel) (.refl _)

/-- A task is cancelled, if it is not done. -/
theorem cancelled (hh : h.Lawful) (id : TaskId) (s : σ) :
    h.Acts (if (h.scheduler s).isDone id then [] else [(h.scheduler s).note id .cancel]) s
      (h.cancel id s).1 := by
  cases ht : (h.scheduler s).task? id with
  | none => simpa [Host.cancel, Scheduler.isDone, ht] using Acts.refl (h := h) s
  | some t =>
    have hdone := Scheduler.isDone_of_task? ht
    cases hd : t.done with
    | true => simpa [Host.cancel, hdone, ht, hd] using Acts.refl (h := h) s
    | false =>
      simp only [hdone, hd, Bool.false_eq_true, if_false]
      exact .cancelOne hh ht hd

end Host.Acts
end VisualNovel
