import VisualNovel.Dialogue.Commands
import VisualNovel.Proofs.Scheduler.Tasks
/-!
# The tasks of a dialogue

What cancelling, starting and resuming a task does to a dialogue, in closed form, and what an update
comes to. At most one of a dialogue's own tasks waits: the dialogue is free of them (`Free`), reveals
a line (`Reveals`), or is about to focus the first choice (`Focusing`).
-/
namespace VisualNovel

/-- Whether a task reveals a line or focuses the first choice; the start button is not the
dialogue's own business. -/
def Activity.isOwn : Activity α → Bool
  | reveal _ _ | focusChoice => true
  | focusStart => false

/-- What a task with something left to do is called. -/
def Activity.label : Activity α → Json
  | reveal _ _ => .str "reveal_line"
  | focusChoice => .str "focus_choice"
  | focusStart => .str "focus_start"

namespace Dialogue
variable {τ α ω : Type}

/-- The task with a number, if it is one of the dialogue's own and waits. -/
def own? (s : Scheduler τ (Activity α)) (id : TaskId) : Option (Task τ (Activity α)) :=
  s.waits? Activity.isOwn id

/-- A note of a task that is not there or is over. -/
def Spent (s : Scheduler τ (Activity α)) (note : Option TaskId) : Prop :=
  ∀ id, note = some id → s.IsOver id

section
variable (s : Scheduler τ (Activity α)) (reveal focus : Option TaskId)

/-- No task of its own waits; `reveal` and `focus` are the dialogue's notes of such tasks. -/
structure Free : Prop where
  none : ∀ id, own? s id = none
  reveal : Spent s reveal
  focus : Spent s focus

/-- The one task of its own that waits focuses the first choice. -/
structure Focusing (id : TaskId) (t : Task τ (Activity α)) : Prop where
  noted : focus = some id
  waits : own? s id = some t
  rest : t.body = .suspended .focusChoice
  only : ∀ j, j ≠ id → own? s j = none
  reveal : Spent s reveal

end

section
variable (s : Scheduler τ (Activity Unit)) (reveal focus : Option TaskId)

/-- The one task of its own that waits reveals a line. -/
structure Reveals (text : String) (id : TaskId) (t : Task τ (Activity Unit)) : Prop where
  noted : reveal = some id
  waits : own? s id = some t
  rest : t.body = .suspended (.reveal text ())
  only : ∀ j, j ≠ id → own? s j = none
  focus : Spent s focus

/-- A dialogue is free of tasks, reveals a line or is about to focus a choice. -/
def Settled : Prop :=
  Free s reveal focus ∨ (∃ text id t, Reveals s reveal focus text id t) ∨
    ∃ id t, Focusing s reveal focus id t

end

theorem Spent.follows {s s' : Scheduler τ (Activity α)} {note : Option TaskId} (h : Spent s note)
    (hf : s.Follows s') : Spent s' note := fun id hid => hf.ended id (h id hid)

theorem spent_none (s : Scheduler τ (Activity α)) : Spent s none := nofun

/-! ## Cancelling -/

/-- Whatever task is cancelled, only the tasks change, and the clock stays as it is. -/
theorem host_cancel_tasks (st : Stage ω) (id : TaskId) (d : Dialogue τ α ω) :
    ∃ s, ((host st).cancel id d).1 = { d with scheduler := s } ∧ s.time = d.scheduler.time ∧
      s.tick = d.scheduler.tick := by
  unfold Host.cancel
  simp only
  split
  · exact ⟨_, rfl, rfl, rfl⟩
  · split
    · exact ⟨_, rfl, rfl, rfl⟩
    · split <;> exact ⟨_, rfl, rfl, rfl⟩

section
variable {P : Task τ (Activity α) → Activity α → Prop}

theorem host_cancel (st : Stage ω) {d : Dialogue τ α ω} {id : TaskId}
    (ho : d.scheduler.Orderly P)
    (h : d.scheduler.IsOver id ∨ ∃ t, own? d.scheduler id = some t) :
    ∃ s, ((host st).cancel id d).1 = { d with scheduler := s } ∧ s.Orderly P ∧
      d.scheduler.Follows s ∧ s.IsOver id ∧ ∀ j, j ≠ id → own? s j = own? d.scheduler j := by
  rcases h with hover | ⟨t, ht⟩
  · have ⟨t, ht, hd⟩ := hover
    refine ⟨d.scheduler, ?_, ho, .refl _, hover, fun _ _ => rfl⟩
    simp [Host.cancel, host, ht, hd]
  · obtain ⟨htask, rest, hleft, -⟩ := Scheduler.waits?_eq_some.1 ht
    obtain ⟨hb, hd⟩ := Task.left?_eq_some.1 hleft
    refine ⟨d.scheduler.modify id fun t =>
      { t with cancelled := true, done := true, body := .ended },
      ?_, ho.modify id (fun _ _ hd => nomatch hd), .modify htask ?_ (nofun) (fun _ => rfl), ?_,
      fun j hj => Scheduler.waits?_modify_of_ne _ _ hj⟩
    · simp [Host.cancel, Host.modify, host, htask, hd, hb]
    · rw [hb]
      exact nofun
    · exact ⟨_, by rw [Scheduler.task?_modify_self, htask]; rfl, rfl⟩

end

section
variable {P : Task τ (Activity Unit) → Activity Unit → Prop} {d : Dialogue τ Unit ω}

/-- A note of a reveal is of a task that waits or is over. -/
theorem Settled.reveal {s : Scheduler τ (Activity Unit)} {reveal focus : Option TaskId}
    (h : Settled s reveal focus) {id : TaskId} (hid : reveal = some id) :
    s.IsOver id ∨ ∃ t, own? s id = some t := by
  rcases h with h | ⟨text, j, t, h⟩ | ⟨j, t, h⟩
  · exact Or.inl (h.reveal id hid)
  · rw [h.noted] at hid
    cases hid
    exact Or.inr ⟨t, h.waits⟩
  · exact Or.inl (h.reveal id hid)

/-- When the reveal is cancelled, a focus is all that may be left. -/
theorem cancelReveal_settled (st : Stage ω) (ho : d.scheduler.Orderly P)
    (h : Settled d.scheduler d.reveal d.focus) :
    ∃ s, d.cancelReveal st = { d with scheduler := s, reveal := none } ∧ s.Orderly P ∧
      d.scheduler.Follows s ∧ (Free s none d.focus ∨ ∃ id t, Focusing s none d.focus id t) := by
  unfold cancelReveal
  match hr : d.reveal with
  | none =>
    refine ⟨d.scheduler, by simp only; rw [← hr], ho, .refl _, ?_⟩
    rcases h with h | ⟨text, id, t, h⟩ | ⟨id, t, h⟩
    · exact Or.inl ⟨h.none, spent_none _, h.focus⟩
    · rw [h.noted] at hr
      cases hr
    · exact Or.inr ⟨id, t, h.noted, h.waits, h.rest, h.only, spent_none _⟩
  | some id =>
    obtain ⟨s, hs, hos, hf, hover, hown⟩ := host_cancel st ho (h.reveal hr)
    refine ⟨s, by simp only [hs], hos, hf, ?_⟩
    have hgone : own? s id = none := Scheduler.waits?_of_isOver hover
    rcases h with h | ⟨text, i, t, h⟩ | ⟨i, t, h⟩
    · refine Or.inl ⟨fun j => ?_, spent_none _, h.focus.follows hf⟩
      by_cases hj : j = id
      · exact hj ▸ hgone
      · exact (hown j hj).trans (h.none j)
    · refine Or.inl ⟨fun j => ?_, spent_none _, h.focus.follows hf⟩
      by_cases hj : j = id
      · exact hj ▸ hgone
      · refine (hown j hj).trans (h.only j fun hji => hj ?_)
        rw [h.noted] at hr
        cases hr
        exact hji
    · have hne : i ≠ id := by
        rintro rfl
        have hw := h.waits
        rw [own?, Scheduler.waits?_of_isOver (h.reveal i hr)] at hw
        cases hw
      refine Or.inr ⟨i, t, h.noted, (hown i hne).trans h.waits, h.rest, fun j hj => ?_,
        spent_none _⟩
      by_cases hj' : j = id
      · exact hj' ▸ hgone
      · exact (hown j hj').trans (h.only j hj)

/-- When a focus is cancelled, no task is left. -/
theorem cancelFocus_free (st : Stage ω) (ho : d.scheduler.Orderly P)
    (h : Free d.scheduler d.reveal d.focus ∨
      ∃ id t, Focusing d.scheduler d.reveal d.focus id t) :
    ∃ s, d.cancelFocus st = { d with scheduler := s, focus := none } ∧ s.Orderly P ∧
      d.scheduler.Follows s ∧ Free s d.reveal none := by
  unfold cancelFocus
  match hr : d.focus with
  | none =>
    refine ⟨d.scheduler, by simp only; rw [← hr], ho, .refl _, ?_⟩
    rcases h with h | ⟨id, t, h⟩
    · exact ⟨h.none, h.reveal, spent_none _⟩
    · rw [h.noted] at hr
      cases hr
  | some id =>
    have hid : d.scheduler.IsOver id ∨ ∃ t, own? d.scheduler id = some t := by
      rcases h with h | ⟨i, t, h⟩
      · exact Or.inl (h.focus id hr)
      · rw [h.noted] at hr
        cases hr
        exact Or.inr ⟨t, h.waits⟩
    obtain ⟨s, hs, hos, hf, hover, hown⟩ := host_cancel st ho hid
    refine ⟨s, by simp only [hs], hos, hf, fun j => ?_, ?_, spent_none _⟩
    · by_cases hj : j = id
      · exact hj ▸ Scheduler.waits?_of_isOver hover
      · refine (hown j hj).trans ?_
        rcases h with h | ⟨i, t, h⟩
        · exact h.none j
        · rw [h.noted] at hr
          cases hr
          exact h.only j hj
    · rcases h with h | ⟨i, t, h⟩
      · exact h.reveal.follows hf
      · exact h.reveal.follows hf

theorem cancel_both (st : Stage ω) (ho : d.scheduler.Orderly P)
    (h : Settled d.scheduler d.reveal d.focus) :
    ∃ s, (d.cancelReveal st).cancelFocus st =
        { d with scheduler := s, reveal := none, focus := none } ∧ s.Orderly P ∧
      d.scheduler.Follows s ∧ Free s none none := by
  obtain ⟨s, hs, hos, hf, hleft⟩ := cancelReveal_settled st ho h
  rw [hs]
  obtain ⟨s', hs', hos', hf', hfree⟩ := cancelFocus_free st
    (d := { d with scheduler := s, reveal := none }) hos hleft
  exact ⟨s', hs', hos', hf.trans hf', hfree⟩

end

/-! ## One more task -/

section
variable {s s' : Scheduler τ (Activity α)} {reveal focus : Option TaskId} {id : TaskId}
  {t : Task τ (Activity α)}

/-- Schedulers with the same tasks of its own, of which the second has all that are over. -/
structure Alike (s s' : Scheduler τ (Activity α)) : Prop where
  own : ∀ j, own? s' j = own? s j
  ended : ∀ j, s.IsOver j → s'.IsOver j

theorem alike_enrol (s : Scheduler τ (Activity α)) (name : Json) : Alike s (s.enrol name) :=
  ⟨Scheduler.waits?_enrol _ s name, fun _ h => Scheduler.isOver_enrol h name⟩

theorem alike_finish (ht : s.task? id = some t) (hb : t.body = .running) :
    Alike s (s.modify id Task.finish) :=
  ⟨Scheduler.waits?_finish _ ht hb, fun _ h => h.modify fun _ _ _ => rfl⟩

theorem alike_awaken (ht : s.task? id = some t) (hl : own? s id = none) :
    Alike s (s.modify id fun t => { t with body := .running }) := by
  refine ⟨fun j => ?_, fun _ h => h.modify fun _ _ hd => hd⟩
  by_cases hj : j = id
  · subst hj
    rw [hl]
    exact Scheduler.waits?_of_running (by rw [Scheduler.task?_modify_self, ht]; rfl) rfl
  · exact Scheduler.waits?_modify_of_ne _ _ hj

theorem Spent.alike {note : Option TaskId} (h : Spent s note) (ha : Alike s s') : Spent s' note :=
  fun id hid => ha.ended id (h id hid)

theorem Free.alike (h : Free s reveal focus) (ha : Alike s s') : Free s' reveal focus :=
  ⟨fun j => (ha.own j).trans (h.none j), h.reveal.alike ha, h.focus.alike ha⟩

theorem Focusing.alike {i : TaskId} (h : Focusing s reveal focus i t) (ha : Alike s s') :
    Focusing s' reveal focus i t :=
  ⟨h.noted, (ha.own i).trans h.waits, h.rest, fun j hj => (ha.own j).trans (h.only j hj),
    h.reveal.alike ha⟩

theorem Reveals.alike {s s' : Scheduler τ (Activity Unit)} {text : String} {i : TaskId}
    {t : Task τ (Activity Unit)} (h : Reveals s reveal focus text i t) (ha : Alike s s') :
    Reveals s' reveal focus text i t :=
  ⟨h.noted, (ha.own i).trans h.waits, h.rest, fun j hj => (ha.own j).trans (h.only j hj),
    h.focus.alike ha⟩

/-- A task that is put back where no other one waits is the only one. -/
theorem own?_pause (h : ∀ j, own? s j = none) (ht : s.task? id = some t) (hd : t.done = false)
    {rest : Activity α} (hr : rest.isOwn = true) (wakeTime : τ) (wakeTick : Nat) :
    own? (s.modify id (Task.pause rest wakeTime wakeTick)) id =
        some (t.pause rest wakeTime wakeTick) ∧
      ∀ j, j ≠ id → own? (s.modify id (Task.pause rest wakeTime wakeTick)) j = none :=
  ⟨Scheduler.waits?_pause ht hd hr wakeTime wakeTick,
    fun j hj => (Scheduler.waits?_modify_of_ne s _ hj).trans (h j)⟩

end

/-! ## Starting -/

section
variable [Clock τ] (st : Stage ω) {d d₂ : Dialogue τ α ω} (name : Json)
  (run : Dialogue τ α ω → Dialogue τ α ω × Outcome τ (Activity α))

theorem host_start_finish
    (hrun : run { d with scheduler := d.scheduler.enrol name } = (d₂, .finish))
    (hf : (d.scheduler.enrol name).Follows d₂.scheduler) :
    (host st).start name run d =
      (({ d₂ with scheduler := d₂.scheduler.modify d.scheduler.tasks.length Task.finish }, none),
        d.scheduler.tasks.length) := by
  have ht := hf.task?_running (Scheduler.task?_enrol_new d.scheduler name) rfl
  have hdone : (d₂.scheduler.modify d.scheduler.tasks.length Task.finish).isDone
      d.scheduler.tasks.length = true := by
    simp [Scheduler.isDone, Scheduler.task?_modify_self, ht, Task.finish]
  unfold Scheduler.enrol at hrun
  simp [Host.start, Host.modify, Host.settle, host, hrun, hdone]

theorem host_start_suspend {r : Request τ} {rest : Activity α} {wakeTime : τ}
    (hrun : run { d with scheduler := d.scheduler.enrol name } = (d₂, .suspend r rest))
    (hf : (d.scheduler.enrol name).Follows d₂.scheduler)
    (hw : r.wakeTime d.scheduler.time = .ok wakeTime) :
    (host st).start name run d =
      (({ d₂ with
          scheduler := d₂.scheduler.shelve d.scheduler.tasks.length rest wakeTime
            (r.wakeTick d.scheduler.tick) }, none), d.scheduler.tasks.length) := by
  have ht := hf.task?_running (Scheduler.task?_enrol_new d.scheduler name) rfl
  have hdone (f : Task τ (Activity α) → Task τ (Activity α)) (h : ∀ t, (f t).done = t.done) :
      (d₂.scheduler.modify d.scheduler.tasks.length f).isDone d.scheduler.tasks.length = false := by
    simp [Scheduler.isDone, Scheduler.task?_modify_self, ht, h]
  unfold Scheduler.enrol at hrun
  have hlate := hdone (Task.pause rest wakeTime (r.wakeTick d.scheduler.tick)) fun _ => rfl
  simp [Host.start, Host.modify, Host.settle, Host.suspend, host, hrun, hdone, hlate, hw,
    Scheduler.modify_pause, Scheduler.shelve, Scheduler.enlist]

end

/-- A new task that waits after its first run is the only one. -/
theorem shelve_new {P : Task τ (Activity α) → Activity α → Prop} {s : Scheduler τ (Activity α)}
    {reveal focus : Option TaskId} (ho : s.Orderly P) (h : Free s reveal focus) (name : Json)
    (rest : Activity α) (hr : rest.isOwn = true) (wakeTime : τ) (wakeTick : Nat)
    (hP : ∀ t : Task τ (Activity α), t.wakeTime = wakeTime → t.wakeTick = wakeTick →
      t.name = name → P t rest) :
    ∃ s' t, (s.enrol name).shelve s.tasks.length rest wakeTime wakeTick = s' ∧ s'.Orderly P ∧
      s.Follows s' ∧ own? s' s.tasks.length = some t ∧ t.body = .suspended rest ∧
      (∀ j, j ≠ s.tasks.length → own? s' j = none) ∧ Spent s' reveal ∧ Spent s' focus := by
  have ht := Scheduler.task?_enrol_new s name
  have hfree := h.alike (alike_enrol s name)
  have hf : s.Follows ((s.enrol name).shelve s.tasks.length rest wakeTime wakeTick) :=
    Scheduler.Follows.enlist (.settleNew (.refl _) fun _ => nofun) (Nat.le_refl _)
  obtain ⟨hown, honly⟩ := own?_pause hfree.none ht rfl hr wakeTime wakeTick
  exact ⟨_, _, rfl, (ho.enrol name).shelve ht (Scheduler.not_mem_live_enrol ho name) rfl
    (hP _ rfl rfl rfl), hf, hown, rfl, honly, h.reveal.follows hf, h.focus.follows hf⟩

/-! ## Resuming -/

section
variable [Clock τ] (st : Stage ω) {d d₂ : Dialogue τ α ω} {id : TaskId}
  {t : Task τ (Activity α)} {rest : Activity α}
  (run : Activity α → Dialogue τ α ω → Dialogue τ α ω × Outcome τ (Activity α))

/-- A scheduler in which a task is being run again. -/
def awaken (id : TaskId) (s : Scheduler τ (Activity α)) : Scheduler τ (Activity α) :=
  s.modify id fun t => { t with body := .running }

theorem host_resume_finish (ht : d.scheduler.task? id = some t) (hl : t.left? = some rest)
    (hrun : run rest { d with scheduler := awaken id d.scheduler } = (d₂, .finish)) :
    (host st).resume run id d =
      ({ d₂ with scheduler := d₂.scheduler.modify id Task.finish }, none) := by
  obtain ⟨hb, -⟩ := Task.left?_eq_some.1 hl
  unfold awaken at hrun
  simp [Host.resume, Host.modify, Host.settle, host, ht, hb, hrun]

theorem host_resume_suspend (ht : d.scheduler.task? id = some t) (hl : t.left? = some rest)
    {r : Request τ} {rest' : Activity α} {wakeTime : τ}
    (hrun : run rest { d with scheduler := awaken id d.scheduler } = (d₂, .suspend r rest'))
    (hf : (awaken id d.scheduler).Follows d₂.scheduler)
    (hw : r.wakeTime t.wakeTime = .ok wakeTime) :
    (host st).resume run id d =
      ({ d₂ with
          scheduler := d₂.scheduler.modify id
            (Task.pause rest' wakeTime (r.wakeTick d.scheduler.tick)) }, none) := by
  obtain ⟨hb, hd⟩ := Task.left?_eq_some.1 hl
  have ht₁ : (awaken id d.scheduler).task? id = some { t with body := .running } := by
    rw [awaken, Scheduler.task?_modify_self, ht]
    rfl
  have ht₂ := hf.task?_running ht₁ rfl
  have hdone (f : Task τ (Activity α) → Task τ (Activity α)) (h : ∀ t, (f t).done = t.done) :
      (d₂.scheduler.modify id f).isDone id = false := by
    simp [Scheduler.isDone, Scheduler.task?_modify_self, ht₂, h, hd]
  unfold awaken at hrun
  simp [Host.resume, Host.modify, Host.settle, Host.suspend, host, ht, hb, hrun, hdone, hw,
    Scheduler.modify_pause]

end
end Dialogue
end VisualNovel
