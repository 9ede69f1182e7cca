import VisualNovel.Scheduler
/-!
# Tasks that wait

Between two runs a task waits with something left to do. `Scheduler.waits?` is the view of a
scheduler that shows the waiting tasks of one kind only; `Scheduler.Orderly` says that a task that
is not done is being run or waits in the list that an update goes through.

While a task is run, what it does to the scheduler must leave all tasks alone that are being run
(`Scheduler.Follows`). Under that condition the end of the run can be noted: the task is over, or it
waits again.
-/
namespace VisualNovel
variable {τ β : Type}

/-- What a task that waits has left to do. -/
def Task.left? (t : Task τ β) : Option β :=
  match t.body with
  | .suspended rest => if t.done then none else some rest
  | .running | .ended => none

theorem Task.left?_eq_some {t : Task τ β} {rest : β} :
    t.left? = some rest ↔ t.body = .suspended rest ∧ t.done = false := by
  unfold left?
  cases t.body <;> cases t.done <;> simp

theorem Task.left?_of_done {t : Task τ β} (h : t.done = true) : t.left? = none := by
  unfold left?
  cases t.body <;> simp [h]

namespace Scheduler

/-- The task with a number, if it waits and has something left to do of which `p` holds. -/
def waits? (p : β → Bool) (s : Scheduler τ β) (id : TaskId) : Option (Task τ β) :=
  (s.task? id).filter fun t => t.left?.any p

/-- The task with the number has been started and is done. -/
def IsOver (s : Scheduler τ β) (id : TaskId) : Prop := ∃ t, s.task? id = some t ∧ t.done = true

/-- Every task is either done, or being run, or waits where an update will find it, and then `P`
holds of it and of what it has left to do. -/
structure Orderly (P : Task τ β → β → Prop) (s : Scheduler τ β) : Prop where
  nodup : s.live.Nodup
  bound : ∀ id ∈ s.live, id < s.tasks.length
  listed : ∀ id t, s.task? id = some t → t.done = false →
    t.body = .running ∨ (∃ rest, t.left? = some rest ∧ P t rest) ∧ id ∈ s.live

/-- No task is forgotten, and only new ones come to live. -/
structure Widens (s s' : Scheduler τ β) : Prop where
  size : s.tasks.length ≤ s'.tasks.length
  live : ∃ new, s'.live = s.live ++ new ∧ ∀ id ∈ new, s.tasks.length ≤ id

/-- What may happen to a scheduler while tasks are being run: those tasks stay as they are, no task
comes back to life, and only new ones come to live. -/
structure Follows (s s' : Scheduler τ β) : Prop extends Widens s s' where
  time : s'.time = s.time
  tick : s'.tick = s.tick
  running : ∀ id t, t.body = .running → (s'.task? id = some t ↔ s.task? id = some t)
  ended : ∀ id, s.IsOver id → s'.IsOver id

namespace Widens
variable {s s' s'' : Scheduler τ β}

theorem refl (s : Scheduler τ β) : s.Widens s := ⟨Nat.le_refl _, [], by simp⟩

theorem trans (h : s.Widens s') (h' : s'.Widens s'') : s.Widens s'' where
  size := Nat.le_trans h.size h'.size
  live := by
    obtain ⟨new, hl, hn⟩ := h.live
    obtain ⟨new', hl', hn'⟩ := h'.live
    refine ⟨new ++ new', by rw [hl', hl, List.append_assoc], fun id hid => ?_⟩
    rcases List.mem_append.1 hid with hid | hid
    · exact hn id hid
    · exact Nat.le_trans h.size (hn' id hid)

/-- A task that waits where an update finds it goes on doing so. -/
theorem mem_live (h : s.Widens s') {id : TaskId} (hid : id ∈ s.live) : id ∈ s'.live := by
  obtain ⟨new, hl, -⟩ := h.live
  rw [hl]
  exact List.mem_append_left _ hid

end Widens

namespace Follows
variable {s s' s'' : Scheduler τ β}

theorem refl (s : Scheduler τ β) : s.Follows s :=
  ⟨.refl s, rfl, rfl, fun _ _ _ => Iff.rfl, fun _ h => h⟩

theorem trans (h : s.Follows s') (h' : s'.Follows s'') : s.Follows s'' where
  toWidens := h.toWidens.trans h'.toWidens
  time := h'.time.trans h.time
  tick := h'.tick.trans h.tick
  running id t ht := (h'.running id t ht).trans (h.running id t ht)
  ended id ho := h'.ended id (h.ended id ho)

end Follows

/-! ## Looking a task up -/

theorem task?_lt {s : Scheduler τ β} {id : TaskId} {t : Task τ β} (h : s.task? id = some t) :
    id < s.tasks.length := (List.getElem?_eq_some_iff.1 h).1

theorem exists_task? {s : Scheduler τ β} {id : TaskId} (h : id < s.tasks.length) :
    ∃ t, s.task? id = some t := ⟨_, List.getElem?_eq_getElem h⟩

theorem isDone_of_task? {s : Scheduler τ β} {id : TaskId} {t : Task τ β}
    (ht : s.task? id = some t) : s.isDone id = t.done := by
  unfold isDone
  rw [ht]
  rfl

theorem task?_modify (s : Scheduler τ β) (id j : TaskId) (f : Task τ β → Task τ β) :
    (s.modify id f).task? j = if id = j then (s.task? j).map f else s.task? j := by
  unfold modify task?
  rw [List.getElem?_modify]
  split <;> simp

theorem task?_modify_self (s : Scheduler τ β) (id : TaskId) (f : Task τ β → Task τ β) :
    (s.modify id f).task? id = (s.task? id).map f := by
  rw [task?_modify, if_pos rfl]

theorem task?_modify_of_ne {id j : TaskId} (s : Scheduler τ β) (f : Task τ β → Task τ β)
    (h : j ≠ id) : (s.modify id f).task? j = s.task? j := by
  rw [task?_modify, if_neg (Ne.symm h)]

theorem isDone_modify_self {s : Scheduler τ β} {id : TaskId} {t : Task τ β}
    (ht : s.task? id = some t) (f : Task τ β → Task τ β) : (s.modify id f).isDone id = (f t).done := by
  refine isDone_of_task? ?_
  rw [task?_modify_self, ht]
  rfl

theorem waits?_eq_some {p : β → Bool} {s : Scheduler τ β} {id : TaskId} {t : Task τ β} :
    s.waits? p id = some t ↔ s.task? id = some t ∧ ∃ rest, t.left? = some rest ∧ p rest := by
  unfold waits?
  rw [Option.filter_eq_some_iff]
  cases t.left? <;> simp

theorem waits?_modify_of_ne {p : β → Bool} {id j : TaskId} (s : Scheduler τ β)
    (f : Task τ β → Task τ β) (h : j ≠ id) : (s.modify id f).waits? p j = s.waits? p j := by
  unfold waits?
  rw [task?_modify_of_ne s f h]

theorem waits?_of_running {p : β → Bool} {s : Scheduler τ β} {id : TaskId} {t : Task τ β}
    (h : s.task? id = some t) (hb : t.body = .running) : s.waits? p id = none := by
  unfold waits?
  rw [h]
  simp [Task.left?, hb]

theorem waits?_of_isOver {p : β → Bool} {s : Scheduler τ β} {id : TaskId} (h : s.IsOver id) :
    s.waits? p id = none := by
  obtain ⟨t, ht, hd⟩ := h
  unfold waits?
  rw [ht]
  simp [Task.left?_of_done hd]

/-! ## Changing one task -/

/-- A task that is not being run may be ended, or given something else to wait for. -/
theorem Orderly.modify {P : Task τ β → β → Prop} {s : Scheduler τ β} (h : s.Orderly P)
    (id : TaskId) {f : Task τ β → Task τ β}
    (hf : ∀ t, s.task? id = some t → (f t).done = false →
      (f t).body = .running ∨ (∃ rest, (f t).left? = some rest ∧ P (f t) rest) ∧ id ∈ s.live) :
    (s.modify id f).Orderly P where
  nodup := h.nodup
  bound j hj := by
    show j < (s.tasks.modify id f).length
    rw [List.length_modify]
    exact h.bound j hj
  listed j t ht hd := by
    by_cases hj : j = id
    · subst hj
      rw [task?_modify_self, Option.map_eq_some_iff] at ht
      obtain ⟨t₀, ht₀, rfl⟩ := ht
      exact hf t₀ ht₀ hd
    · rw [task?_modify_of_ne s f hj] at ht
      exact h.listed j t ht hd

theorem IsOver.modify {s : Scheduler τ β} {id j : TaskId} {f : Task τ β → Task τ β}
    (h : s.IsOver j) (hf : ∀ t, s.task? id = some t → t.done = true → (f t).done = true) :
    (s.modify id f).IsOver j := by
  obtain ⟨t, ht, hd⟩ := h
  by_cases hj : j = id
  · subst hj
    exact ⟨f t, by rw [task?_modify_self, ht]; rfl, hf t ht hd⟩
  · exact ⟨t, by rw [task?_modify_of_ne s f hj]; exact ht, hd⟩

theorem Widens.modify (s : Scheduler τ β) (id : TaskId) (f : Task τ β → Task τ β) :
    s.Widens (s.modify id f) where
  size := Nat.le_of_eq (List.length_modify ..).symm
  live := ⟨[], by simp [Scheduler.modify]⟩

theorem Follows.modify {s : Scheduler τ β} {id : TaskId} {t : Task τ β} {f : Task τ β → Task τ β}
    (ht : s.task? id = some t) (hb : t.body ≠ .running) (hb' : (f t).body ≠ .running)
    (hd : t.done = true → (f t).done = true) : s.Follows (s.modify id f) where
  toWidens := .modify s id f
  time := rfl
  tick := rfl
  running j r hr := by
    by_cases hj : j = id
    · subst hj
      rw [task?_modify_self, ht]
      constructor
      · intro h
        cases h
        exact absurd hr hb'
      · intro h
        cases h
        exact absurd hr hb
    · rw [task?_modify_of_ne s f hj]
  ended j hj := hj.modify fun t' ht' hd' => by
    rw [ht] at ht'
    cases ht'
    exact hd hd'

/-! ## Starting a task -/

/-- A scheduler with a new task that is being run. -/
def enrol (name : Json) (s : Scheduler τ β) : Scheduler τ β :=
  { s with tasks := s.tasks ++ [{ name, body := .running, wakeTime := s.time }] }

theorem task?_enrol_of_lt {s : Scheduler τ β} {name : Json} {id : TaskId}
    (h : id < s.tasks.length) : (s.enrol name).task? id = s.task? id :=
  List.getElem?_append_left h

theorem task?_enrol_new (s : Scheduler τ β) (name : Json) :
    (s.enrol name).task? s.tasks.length =
      some { name, body := .running, wakeTime := s.time } := by
  unfold enrol task?
  simp

theorem task?_enrol_of_gt {s : Scheduler τ β} {name : Json} {id : TaskId}
    (h : s.tasks.length < id) : (s.enrol name).task? id = none := by
  unfold enrol task?
  rw [List.getElem?_eq_none_iff]
  simp only [List.length_append, List.length_singleton]
  omega

theorem task?_none_of_le {s : Scheduler τ β} {id : TaskId} (h : s.tasks.length ≤ id) :
    s.task? id = none := List.getElem?_eq_none_iff.2 h

theorem waits?_enrol (p : β → Bool) (s : Scheduler τ β) (name : Json) (id : TaskId) :
    (s.enrol name).waits? p id = s.waits? p id := by
  rcases Nat.lt_trichotomy id s.tasks.length with h | rfl | h
  · unfold waits?
    rw [task?_enrol_of_lt h]
  · rw [waits?_of_running (task?_enrol_new s name) rfl]
    unfold waits?
    rw [task?_none_of_le (Nat.le_refl _)]
    rfl
  · unfold waits?
    rw [task?_enrol_of_gt h, task?_none_of_le (Nat.le_of_lt h)]

theorem Orderly.enrol {P : Task τ β → β → Prop} {s : Scheduler τ β} (h : s.Orderly P)
    (name : Json) : (s.enrol name).Orderly P where
  nodup := h.nodup
  bound id hid := by
    have hlen : (s.enrol name).tasks.length = s.tasks.length + 1 := by simp [Scheduler.enrol]
    rw [hlen]
    exact Nat.lt_succ_of_lt (h.bound id hid)
  listed id t ht hd := by
    rcases Nat.lt_trichotomy id s.tasks.length with hlt | rfl | hgt
    · rw [task?_enrol_of_lt hlt] at ht
      exact h.listed id t ht hd
    · rw [task?_enrol_new] at ht
      cases ht
      exact Or.inl rfl
    · rw [task?_enrol_of_gt hgt] at ht
      cases ht

theorem isOver_enrol {s : Scheduler τ β} {id : TaskId} (h : s.IsOver id) (name : Json) :
    (s.enrol name).IsOver id := by
  obtain ⟨t, ht, hd⟩ := h
  exact ⟨t, by rw [task?_enrol_of_lt (task?_lt ht)]; exact ht, hd⟩

theorem not_mem_live_enrol {P : Task τ β → β → Prop} {s : Scheduler τ β} (h : s.Orderly P)
    (name : Json) : s.tasks.length ∉ (s.enrol name).live := fun hm => Nat.lt_irrefl _ (h.bound _ hm)

/-- A scheduler whose updates go through one more task. -/
def enlist (id : TaskId) (s : Scheduler τ β) : Scheduler τ β := { s with live := s.live ++ [id] }

theorem task?_enlist (s : Scheduler τ β) (id j : TaskId) : (s.enlist id).task? j = s.task? j := rfl

/-! ## The end of a run -/

end Scheduler

/-- A task that waits again. -/
def Task.pause (rest : β) (wakeTime : τ) (wakeTick : Nat) (t : Task τ β) : Task τ β :=
  { t with body := .suspended rest, wakeTime, wakeTick }

theorem Task.pause_ne_running (rest : β) (wakeTime : τ) (wakeTick : Nat) (t : Task τ β) :
    (t.pause rest wakeTime wakeTick).body ≠ .running := nofun

theorem Task.finish_ne_running (t : Task τ β) : t.finish.body ≠ .running := nofun

namespace Scheduler

theorem modify_pause (s : Scheduler τ β) (id : TaskId) (rest : β) (wakeTime : τ) (wakeTick : Nat) :
    (s.modify id fun t => { t with body := .suspended rest }).modify id
        (fun t => { t with wakeTime, wakeTick }) =
      s.modify id (Task.pause rest wakeTime wakeTick) := by
  unfold modify
  rw [List.modify_modify_eq]
  rfl

section
variable {P : Task τ β → β → Prop} {s s₁ s₂ : Scheduler τ β} {id : TaskId} {t : Task τ β}

/-- The task that is run stays as it is until its run is settled. -/
theorem Follows.task?_running (h : s₁.Follows s₂) (ht : s₁.task? id = some t)
    (hb : t.body = .running) : s₂.task? id = some t := (h.running id t hb).2 ht

theorem Widens.enrol (s : Scheduler τ β) (name : Json) : s.Widens (s.enrol name) where
  size := by simp [Scheduler.enrol]
  live := ⟨[], by simp [Scheduler.enrol]⟩

theorem Widens.enlist (h : s.Widens s₂) (hid : s.tasks.length ≤ id) :
    s.Widens (s₂.enlist id) where
  size := h.size
  live := by
    obtain ⟨new, hl, hn⟩ := h.live
    refine ⟨new ++ [id], by rw [Scheduler.enlist, hl, List.append_assoc], fun j hj => ?_⟩
    rcases List.mem_append.1 hj with hj | hj
    · exact hn j hj
    · rw [List.mem_singleton.1 hj]
      exact hid

/-- The first run of a task, come to `s₂`, is settled. -/
theorem Follows.settleNew {name : Json} (hrun : (s.enrol name).Follows s₂)
    {f : Task τ β → Task τ β} (hf : ∀ t, (f t).body ≠ .running) :
    s.Follows (s₂.modify s.tasks.length f) where
  toWidens := ((Widens.enrol s name).trans hrun.toWidens).trans (.modify ..)
  time := hrun.time
  tick := hrun.tick
  running j r hr := by
    by_cases hj : j = s.tasks.length
    · subst hj
      rw [task?_modify_self, task?_none_of_le (Nat.le_refl s.tasks.length)]
      constructor
      · intro h
        obtain ⟨r', -, rfl⟩ := Option.map_eq_some_iff.1 h
        exact absurd hr (hf r')
      · intro h
        cases h
    · rw [task?_modify_of_ne s₂ f hj, hrun.running j r hr]
      rcases Nat.lt_or_gt_of_ne hj with h | h
      · rw [task?_enrol_of_lt h]
      · rw [task?_enrol_of_gt h, task?_none_of_le (Nat.le_of_lt h)]
  ended j hj := by
    have hne : j ≠ s.tasks.length := by
      obtain ⟨r, hr, -⟩ := hj
      exact Nat.ne_of_lt (task?_lt hr)
    obtain ⟨r, hr, hrd⟩ := hrun.ended j (isOver_enrol hj name)
    exact ⟨r, by rw [task?_modify_of_ne s₂ f hne]; exact hr, hrd⟩

theorem Follows.enlist (h : s.Follows s₂) (hid : s.tasks.length ≤ id) : s.Follows (s₂.enlist id) :=
  { h with toWidens := h.toWidens.enlist hid }

/-- A scheduler in which a task waits that it has not gone through yet. -/
def shelve (id : TaskId) (rest : β) (wakeTime : τ) (wakeTick : Nat) (s : Scheduler τ β) :
    Scheduler τ β := (s.modify id (Task.pause rest wakeTime wakeTick)).enlist id

/-- A new task that waits, unless it is done, comes to live. -/
theorem Orderly.settleNew (h : s₂.Orderly P) (ht : s₂.task? id = some t) (hid : id ∉ s₂.live)
    {f : Task τ β → Task τ β}
    (hf : (f t).done = false → ∃ rest, (f t).left? = some rest ∧ P (f t) rest) :
    ((s₂.modify id f).enlist id).Orderly P where
  nodup := by
    show (s₂.live ++ [id]).Nodup
    rw [List.nodup_append]
    refine ⟨h.nodup, by simp, fun j hj k hk => ?_⟩
    rw [List.mem_singleton.1 hk]
    rintro rfl
    exact hid hj
  bound j hj := by
    have hlen : ((s₂.modify id f).enlist id).tasks.length = s₂.tasks.length :=
      List.length_modify ..
    rw [hlen]
    rcases List.mem_append.1 hj with hj | hj
    · exact h.bound j hj
    · rw [List.mem_singleton.1 hj]
      exact task?_lt ht
  listed j r hr hrd := by
    rw [task?_enlist] at hr
    by_cases hj : j = id
    · subst hj
      rw [task?_modify_self, ht] at hr
      cases hr
      exact Or.inr ⟨hf hrd, List.mem_append_right _ (List.mem_singleton.2 rfl)⟩
    · rw [task?_modify_of_ne s₂ _ hj] at hr
      exact (h.listed j r hr hrd).imp_right fun ⟨hl, hm⟩ => ⟨hl, List.mem_append_left _ hm⟩

theorem Orderly.shelve (h : s₂.Orderly P) (ht : s₂.task? id = some t) (hid : id ∉ s₂.live)
    (hd : t.done = false) {rest : β} {wakeTime : τ} {wakeTick : Nat}
    (hP : P (t.pause rest wakeTime wakeTick) rest) :
    (s₂.shelve id rest wakeTime wakeTick).Orderly P :=
  h.settleNew ht hid fun _ => ⟨rest, Task.left?_eq_some.2 ⟨rfl, hd⟩, hP⟩

theorem Orderly.finish (h : s₂.Orderly P) (id : TaskId) : (s₂.modify id Task.finish).Orderly P :=
  h.modify id fun _ _ hd => by cases hd

theorem isOver_finish (ht : s₂.task? id = some t) : (s₂.modify id Task.finish).IsOver id :=
  ⟨t.finish, by rw [task?_modify_self, ht]; rfl, rfl⟩

theorem waits?_finish (p : β → Bool) (ht : s₂.task? id = some t) (hb : t.body = .running)
    (j : TaskId) : (s₂.modify id Task.finish).waits? p j = s₂.waits? p j := by
  by_cases hj : j = id
  · subst hj
    rw [waits?_of_isOver (isOver_finish ht), waits?_of_running ht hb]
  · exact waits?_modify_of_ne _ _ hj

theorem Orderly.pause (h : s₂.Orderly P) (ht : s₂.task? id = some t) (hid : id ∈ s₂.live)
    {rest : β} {wakeTime : τ} {wakeTick : Nat} (hP : P (t.pause rest wakeTime wakeTick) rest) :
    (s₂.modify id (Task.pause rest wakeTime wakeTick)).Orderly P :=
  h.modify id fun r hr hd => by
    rw [ht] at hr
    cases hr
    exact Or.inr ⟨⟨rest, Task.left?_eq_some.2 ⟨rfl, hd⟩, hP⟩, hid⟩

theorem waits?_pause {p : β → Bool} {rest : β} (ht : s₂.task? id = some t) (hd : t.done = false)
    (hp : p rest = true) (wakeTime : τ) (wakeTick : Nat) :
    (s₂.modify id (Task.pause rest wakeTime wakeTick)).waits? p id =
      some (t.pause rest wakeTime wakeTick) := by
  rw [waits?_eq_some, task?_modify_self, ht]
  exact ⟨rfl, rest, Task.left?_eq_some.2 ⟨rfl, hd⟩, hp⟩

/-- Tasks that are done may be forgotten. -/
theorem Orderly.sweep (h : s.Orderly P) :
    ({ s with live := s.live.filter fun id => !s.isDone id } : Scheduler τ β).Orderly P where
  nodup := h.nodup.filter _
  bound id hid := h.bound id (List.mem_filter.1 hid).1
  listed id t ht hd := (h.listed id t ht hd).imp_right fun ⟨hl, hlive⟩ => by
    refine ⟨hl, List.mem_filter.2 ⟨hlive, ?_⟩⟩
    have ht' : s.task? id = some t := ht
    simp [isDone, ht', hd]

end
end Scheduler

/-! ## Updates -/

namespace Host
section
variable {σ : Type} [Clock τ] (h : Host σ τ β) (run : β → σ → σ × Outcome τ β) {J : σ → Prop}

/-- What every resumption of a task keeps that is due, the task keeps as long as it is due. -/
theorem runDue_keeps (id : TaskId)
    (hresume : ∀ s t, J s → (h.scheduler s).task? id = some t → t.done = false →
      (h.scheduler s).isDue t = true → ∃ s', h.resume run id s = (s', none) ∧ J s')
    (fuel : Nat) (s : σ) (hs : J s) :
    ∃ s', h.runDue run id fuel s = (s', none) ∧ J s' := by
  induction fuel generalizing s with
  | zero => exact ⟨s, rfl, hs⟩
  | succ fuel ih =>
    unfold runDue
    match ht : (h.scheduler s).task? id with
    | none => exact ⟨s, by simp only [ht], hs⟩
    | some t =>
      simp only [ht]
      split
      · next hdue =>
        rw [Bool.and_eq_true, Bool.not_eq_true'] at hdue
        obtain ⟨s', hs', hJ⟩ := hresume s t hs ht hdue.1 hdue.2
        rw [hs', Attempt.andThen_none]
        exact ih s' hJ
      · exact ⟨s, rfl, hs⟩

/-- What every resumption keeps, a round through tasks keeps. -/
theorem inTurn_keeps {f : TaskId → σ → Attempt σ Misfit}
    (hf : ∀ id s, J s → ∃ s', f id s = (s', none) ∧ J s') (ids : List TaskId) (s : σ) (hs : J s) :
    ∃ s', Attempt.inTurn f ids s = (s', none) ∧ J s' := by
  induction ids generalizing s with
  | nil => exact ⟨s, rfl, hs⟩
  | cons id ids ih =>
    obtain ⟨s', hs', hJ⟩ := hf id s hs
    unfold Attempt.inTurn
    rw [hs', Attempt.andThen_none]
    exact ih s' hJ

/-- What the passing of time, every resumption and the final sweep keep, an update keeps, even if a
resumption breaks off. -/
theorem update_keeps (rounds : β → Nat) (dt : τ) {s : σ} (hs : J s)
    (hpass : ∀ time, Clock.add (h.scheduler s).time dt = .ok time →
      J (h.modify (fun c => { c with time, tick := c.tick + 1 }) s))
    (hresume : ∀ s id t, J s → (h.scheduler s).task? id = some t → t.done = false →
      (h.scheduler s).isDue t = true → J (h.resume run id s).1)
    (hsweep : ∀ s, J s → J (h.sweep s)) : J (h.update run rounds dt s).1 := by
  have hround (id : TaskId) (fuel : Nat) (s : σ) (hs : J s) : J (h.runDue run id fuel s).1 := by
    induction fuel generalizing s with
    | zero => exact hs
    | succ fuel ih =>
      unfold runDue
      match ht : (h.scheduler s).task? id with
      | none =>
        simp only [ht]
        exact hs
      | some t =>
        simp only [ht]
        split
        · next hdue =>
          rw [Bool.and_eq_true, Bool.not_eq_true'] at hdue
          exact Attempt.andThen_keeps (hresume s id t hs ht hdue.1 hdue.2) ih
        · exact hs
  unfold update
  match hadd : Clock.add (h.scheduler s).time dt with
  | .error e => exact hs
  | .ok time =>
    exact Attempt.andThen_keeps (Attempt.inTurn_keeps (fun id s hs => hround id _ s hs) _
      (hpass time hadd)) hsweep

/-- What the passing of time brings about, and every resumption and the final sweep keep, an update
brings about. -/
theorem update_carries (rounds : β → Nat) {dt time : τ} {s : σ}
    (hadd : Clock.add (h.scheduler s).time dt = .ok time)
    (hs : J (h.modify (fun c => { c with time, tick := c.tick + 1 }) s))
    (hresume : ∀ s id t, J s → (h.scheduler s).task? id = some t → t.done = false →
      (h.scheduler s).isDue t = true → ∃ s', h.resume run id s = (s', none) ∧ J s')
    (hsweep : ∀ s, J s → J (h.sweep s)) :
    ∃ s', h.update run rounds dt s = (s', none) ∧ J s' := by
  obtain ⟨s', hs', hJ⟩ := inTurn_keeps
    (f := fun id s => h.runDue run id (h.roundsLeft rounds id s) s)
    (fun id s hJ => runDue_keeps h run id (fun s t => hresume s id t) _ s hJ)
    (h.scheduler (h.modify (fun c => { c with time, tick := c.tick + 1 }) s)).live _ hs
  unfold update
  simp only [hadd]
  exact ⟨h.sweep s', by simp only [hs', Attempt.andThen_none], hsweep s' hJ⟩

/-- What one task brings about when it is resumed, and every task keeps from then on, an update
brings about in which that task is due. -/
theorem update_brings {C : σ → Prop} {id : TaskId} (rounds : β → Nat) {dt time : τ} {s : σ}
    (hadd : Clock.add (h.scheduler s).time dt = .ok time)
    (hlive : id ∈ (h.scheduler (h.modify (fun c => { c with time, tick := c.tick + 1 }) s)).live)
    (hs : J (h.modify (fun c => { c with time, tick := c.tick + 1 }) s))
    (hdue : ∀ s, J s → 0 < h.roundsLeft rounds id s ∧ ∃ t, (h.scheduler s).task? id = some t ∧
      t.done = false ∧ (h.scheduler s).isDue t = true)
    (hresume : ∀ s, J s → ∃ s', h.resume run id s = (s', none) ∧ C s')
    (hother : ∀ s j t, J s → j ≠ id → (h.scheduler s).task? j = some t → t.done = false →
      ∃ s', h.resume run j s = (s', none) ∧ J s')
    (hkeep : ∀ s j t, C s → (h.scheduler s).task? j = some t → t.done = false →
      ∃ s', h.resume run j s = (s', none) ∧ C s')
    (hsweep : ∀ s, C s → C (h.sweep s)) :
    ∃ s', h.update run rounds dt s = (s', none) ∧ C s' := by
  have hbring (s : σ) (hs : J s) :
      ∃ s', h.runDue run id (h.roundsLeft rounds id s) s = (s', none) ∧ C s' := by
    obtain ⟨hpos, t, ht, hd, hnow⟩ := hdue s hs
    obtain ⟨fuel, hfuel⟩ := Nat.exists_eq_succ_of_ne_zero (Nat.ne_of_gt hpos)
    obtain ⟨s', hs', hC⟩ := hresume s hs
    rw [hfuel, runDue]
    simp only [ht, hd, hnow, Bool.not_false, Bool.true_and, if_true, hs', Attempt.andThen_none]
    exact runDue_keeps h run id (fun s t hs ht hd _ => hkeep s id t hs ht hd) fuel s' hC
  -- By induction on the tasks that the round comes to: up to the one in question the others keep
  -- `J`, and from there on all of them keep `C`.
  have hround (ids : List TaskId) (hmem : id ∈ ids) (s : σ) (hs : J s) : ∃ s',
      Attempt.inTurn (fun id s => h.runDue run id (h.roundsLeft rounds id s) s) ids s =
        (s', none) ∧ C s' := by
    induction ids generalizing s with
    | nil => cases hmem
    | cons j ids ih =>
      unfold Attempt.inTurn
      by_cases hj : j = id
      · subst hj
        obtain ⟨s', hs', hC⟩ := hbring s hs
        rw [hs', Attempt.andThen_none]
        exact inTurn_keeps (fun j s hC => runDue_keeps h run j
          (fun s t hs ht hd _ => hkeep s j t hs ht hd) _ s hC) ids s' hC
      · have hmem' : id ∈ ids := (List.mem_cons.1 hmem).resolve_left fun he => hj he.symm
        obtain ⟨s', hs', hJ⟩ := runDue_keeps h run j
          (fun s t hs ht hd _ => hother s j t hs hj ht hd) (h.roundsLeft rounds j s) s hs
        rw [hs', Attempt.andThen_none]
        exact ih hmem' s' hJ
  unfold update
  simp only [hadd]
  obtain ⟨s', hs', hC⟩ := hround _ hlive _ hs
  exact ⟨h.sweep s', by simp only [hs', Attempt.andThen_none], hsweep s' hC⟩

end
end Host
end VisualNovel
