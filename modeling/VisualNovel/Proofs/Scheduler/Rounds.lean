import VisualNovel.Proofs.Scheduler.Courses
/-!
# Rounds of tasks that keep to themselves

A task keeps to itself if its body leaves the scheduler alone, if how a run ends lies in the body
alone, and if each of its delays is positive (`Host.Paced`). When such a task is run as long as it is
due, it takes its course (`runDue_course`); a round takes every task along its course, and none makes
a difference to another (`round_passes`).

The runs of tasks are recorded beside the world (`Host.logged`).
-/
namespace VisualNovel

/-- Whether a body is being run. -/
def Body.isRunning : Body β → Bool
  | .running => true
  | _ => false

namespace Scheduler
variable {τ β : Type} {c : Scheduler τ β} {id : TaskId} {t : Task τ β}

/-- The number of the task that is being run. -/
def runner (c : Scheduler τ β) : TaskId := c.tasks.findIdx (·.body.isRunning)

/-- No task is being run. -/
def Idle (c : Scheduler τ β) : Prop := ∀ id t, c.task? id = some t → t.body ≠ .running

theorem modify_modify (c : Scheduler τ β) (id : TaskId) (f g : Task τ β → Task τ β) :
    (c.modify id f).modify id g = c.modify id (g ∘ f) := by
  unfold modify
  rw [List.modify_modify_eq]

theorem modify_congr {f g : Task τ β → Task τ β} (ht : c.task? id = some t) (hfg : f t = g t) :
    c.modify id f = c.modify id g := by
  have htasks : c.tasks.modify id f = c.tasks.modify id g := by
    refine List.ext_getElem? fun j => ?_
    rw [List.getElem?_modify, List.getElem?_modify]
    by_cases hj : id = j
    · subst hj
      rw [show c.tasks[id]? = some t from ht]
      simp [hfg]
    · simp [hj]
  unfold modify
  rw [htasks]

theorem modify_eq_self {f : Task τ β → Task τ β} (ht : c.task? id = some t) (hf : f t = t) :
    c.modify id f = c := by
  rw [modify_congr (g := fun u => u) ht hf]
  have htasks : c.tasks.modify id (fun u => u) = c.tasks := List.modify_id id c.tasks
  unfold modify
  rw [htasks]

theorem Idle.modify (h : c.Idle) {f : Task τ β → Task τ β} (hf : ∀ t, (f t).body ≠ .running) :
    (c.modify id f).Idle := by
  intro j u hu
  rw [task?_modify] at hu
  split at hu
  · obtain ⟨t, -, rfl⟩ := Option.map_eq_some_iff.1 hu
    exact hf t
  · exact h j u hu

/-- Where no other task is being run, a task that is awakened is the one. -/
theorem runner_awaken (h : c.Idle) (ht : c.task? id = some t) :
    (c.modify id fun t => { t with body := .running }).runner = id := by
  have hlt := task?_lt ht
  unfold runner
  rw [List.findIdx_eq (by simpa [Scheduler.modify] using hlt)]
  refine ⟨?_, fun j hj => ?_⟩
  · simp [Scheduler.modify, Body.isRunning]
  · have hne : id ≠ j := Nat.ne_of_gt hj
    have hjlt : j < c.tasks.length := Nat.lt_trans hj hlt
    have hbody := h j c.tasks[j] (by simp [task?, hjlt])
    simp only [Scheduler.modify, List.getElem_modify, hne, if_false]
    cases hb : c.tasks[j].body with
    | running => exact absurd hb hbody
    | suspended rest => rfl
    | ended => rfl

end Scheduler

namespace Host
variable {σ τ β : Type}

/-- The scheduler is a part of the world of its own; reports, and bodies that are closed, leave it
alone. -/
structure Lawful (h : Host σ τ β) : Prop where
  scheduler_withScheduler : ∀ c s, h.scheduler (h.withScheduler c s) = c
  scheduler_report : ∀ m s, h.scheduler (h.report m s) = h.scheduler s
  scheduler_close : ∀ body s, h.scheduler (h.close body s) = h.scheduler s

theorem Lawful.scheduler_modify {h : Host σ τ β} (hh : h.Lawful)
    (f : Scheduler τ β → Scheduler τ β) (s : σ) : h.scheduler (h.modify f s) = f (h.scheduler s) :=
  hh.scheduler_withScheduler _ _

/-- Bodies that keep to themselves. A body for which `P` holds, with the time at which it is due,
leaves the scheduler alone; its run ends as `turn` says; and if it suspends, then for a positive
delay, behind which `P` holds again. -/
structure Paced (h : Host σ Rat β) (run : β → σ → σ × Outcome Rat β) (turn : β → Outcome Rat β)
    (P : β → Rat → Prop) : Prop where
  outcome : ∀ body due s, P body due → (run body s).2 = turn body
  scheduler : ∀ body due s, P body due → h.scheduler (run body s).1 = h.scheduler s
  waits : ∀ body due request rest, P body due → turn body = .suspend request rest →
    ∃ delay, 0 < delay ∧ request = .wait delay ∧ P rest (due + delay)

/-! ## The record -/

/-- The host with a record of which tasks were run, with which bodies. -/
def logged (h : Host σ τ β) : Host (σ × List (TaskId × β)) τ β where
  scheduler w := h.scheduler w.1
  withScheduler c w := (h.withScheduler c w.1, w.2)
  report m w := (h.report m w.1, w.2)
  close body w := (h.close body w.1, w.2)

/-- Runs a body and records it. -/
def logging (h : Host σ τ β) (run : β → σ → σ × Outcome τ β) (body : β)
    (w : σ × List (TaskId × β)) : (σ × List (TaskId × β)) × Outcome τ β :=
  (((run body w.1).1, w.2 ++ [((h.scheduler w.1).runner, body)]), (run body w.1).2)

/-- The host with a record of any kind beside its world. -/
def beside (ρ : Type) (h : Host σ τ β) : Host (σ × ρ) τ β where
  scheduler w := h.scheduler w.1
  withScheduler c w := (h.withScheduler c w.1, w.2)
  report m w := (h.report m w.1, w.2)
  close body w := (h.close body w.1, w.2)

/-- To settle a run makes no difference to the record. -/
theorem settle_beside [Clock τ] {ρ : Type} (h : Host σ τ β) (id : TaskId) (now : τ) (tick : Nat)
    (o : Outcome τ β) (s : σ) (log : ρ) :
    (h.beside ρ).settle id now tick o (s, log) =
      (((h.settle id now tick o s).1, log), (h.settle id now tick o s).2) := by
  cases o with
  | finish => rfl
  | fail => rfl
  | suspend request rest =>
    obtain ⟨s₁, hs₁⟩ : ∃ s₁, h.modify (·.modify id fun t => { t with body := .suspended rest }) s =
      s₁ := ⟨_, rfl⟩
    have hbeside : (h.beside ρ).modify (·.modify id fun t => { t with body := .suspended rest })
        (s, log) = (s₁, log) := congrArg (·, log) hs₁
    unfold settle suspend
    simp only [hs₁, hbeside, show (h.beside ρ).scheduler (s₁, log) = h.scheduler s₁ from rfl]
    split
    · rfl
    · cases request.wakeTime now <;> rfl

theorem settle_logged [Clock τ] (h : Host σ τ β) (id : TaskId) (now : τ) (tick : Nat)
    (o : Outcome τ β) (s : σ) (log : List (TaskId × β)) :
    h.logged.settle id now tick o (s, log) =
      (((h.settle id now tick o s).1, log), (h.settle id now tick o s).2) :=
  settle_beside h id now tick o s log

/-- The steps of a task on record. -/
def stepsOf (id : TaskId) (log : List (TaskId × β)) : List β :=
  (log.filter (·.1 = id)).map (·.2)

theorem stepsOf_append (id : TaskId) (log log' : List (TaskId × β)) :
    stepsOf id (log ++ log') = stepsOf id log ++ stepsOf id log' := by
  simp [stepsOf]

/-! ## One run -/

section
variable {h : Host σ Rat β} {run : β → σ → σ × Outcome Rat β} {turn : β → Outcome Rat β}
  {P : β → Rat → Prop} {id : TaskId} {t : Task Rat β} {body : β} {s : σ}

/-- Where one run of a body leads that is due at a time: to its end, or on to a later time. -/
inductive Leads (turn : β → Outcome Rat β) (P : β → Rat → Prop) (body : β) (due : Rat) :
    Option β → Rat → Prop
  | out (hturn : turn body = .finish ∨ turn body = .fail) : Leads turn P body due none due
  | on {delay rest} (hturn : turn body = .suspend (.wait delay) rest) (hdelay : 0 < delay)
      (hrest : P rest (due + delay)) : Leads turn P body due (some rest) (due + delay)

theorem Paced.leads (hp : h.Paced run turn P) {due : Rat} (hP : P body due) :
    ∃ left due', Leads turn P body due left due' := by
  cases hturn : turn body with
  | finish => exact ⟨none, due, .out (.inl hturn)⟩
  | fail => exact ⟨none, due, .out (.inr hturn)⟩
  | suspend request rest =>
    obtain ⟨delay, hdelay, rfl, hrest⟩ := hp.waits body due request rest hP hturn
    exact ⟨some rest, due + delay, .on hturn hdelay hrest⟩

/-- When the run of a task that keeps to itself is settled, the task is brought to where its body
leads. -/
theorem settle_leads (hh : h.Lawful) {left : Option β} {due : Rat}
    (hleads : Leads turn P body t.wakeTime left due) (ht : (h.scheduler s).task? id = some t)
    (hd : t.done = false) (tick : Nat) :
    ∃ s' tick', h.settle id t.wakeTime tick (turn body) s = (s', none) ∧
      h.scheduler s' = (h.scheduler s).modify id (Task.bring left due tick') ∧
      (tick' = t.wakeTick ∨ tick' = tick) := by
  cases hleads with
  | out hturn =>
    have hfinish : (h.scheduler s).modify id Task.finish =
        (h.scheduler s).modify id (Task.bring none t.wakeTime t.wakeTick) :=
      Scheduler.modify_congr ht rfl
    rcases hturn with hturn | hturn
    · refine ⟨h.modify (·.modify id Task.finish) s, t.wakeTick, by rw [hturn]; rfl, ?_, .inl rfl⟩
      rw [hh.scheduler_modify]
      exact hfinish
    · refine ⟨h.fail id Task.finish s, t.wakeTick, by rw [hturn]; rfl, ?_, .inl rfl⟩
      unfold fail
      rw [hh.scheduler_modify, hh.scheduler_report]
      exact hfinish
  | @on delay rest hturn hdelay hrest =>
    have htick : (Request.wait delay).wakeTick tick = tick := by
      simp [Request.wakeTick, Clock.lt, Clock.zero, hdelay]
    have hsuspend := hh.scheduler_modify (·.modify id fun t => { t with body := .suspended rest }) s
    obtain ⟨s₁, hs₁⟩ :
        ∃ s₁, h.modify (·.modify id fun t => { t with body := .suspended rest }) s = s₁ := ⟨_, rfl⟩
    rw [hs₁] at hsuspend
    have hdone : (h.scheduler s₁).isDone id = false := by
      unfold Scheduler.isDone
      rw [hsuspend, Scheduler.task?_modify_self, ht]
      exact hd
    refine ⟨h.modify (·.modify id fun u => { u with
      wakeTime := t.wakeTime + delay, wakeTick := tick }) s₁, tick, ?_, ?_, .inr rfl⟩
    · rw [hturn]
      unfold settle suspend
      simp only [hs₁, hdone, Bool.false_eq_true, if_false, htick]
      rfl
    · rw [hh.scheduler_modify, hsuspend, Scheduler.modify_modify]
      refine Scheduler.modify_congr ht ?_
      simp [Task.bring, hd]

/-- To run a task that keeps to itself is to bring it to where its body leads, and to record that. -/
theorem resume_leads (hh : h.Lawful) (hp : h.Paced run turn P) (hidle : (h.scheduler s).Idle)
    (ht : (h.scheduler s).task? id = some t) (hl : t.left? = some body)
    (hP : P body t.wakeTime) {left : Option β} {due : Rat}
    (hleads : Leads turn P body t.wakeTime left due) (log : List (TaskId × β)) :
    ∃ s' tick, h.logged.resume (h.logging run) id (s, log) = ((s', log ++ [(id, body)]), none) ∧
      h.scheduler s' = (h.scheduler s).modify id (Task.bring left due tick) ∧
      (tick = t.wakeTick ∨ tick = (h.scheduler s).tick) := by
  obtain ⟨hb, hd⟩ := Task.left?_eq_some.1 hl
  have hrunner := Scheduler.runner_awaken hidle ht
  have hawaken := hh.scheduler_modify (·.modify id fun t => { t with body := .running }) s
  obtain ⟨s₁, hs₁⟩ : ∃ s₁, h.modify (·.modify id fun t => { t with body := .running }) s = s₁ :=
    ⟨_, rfl⟩
  have hlogged : h.logged.modify (·.modify id fun t => { t with body := .running }) (s, log) =
      (s₁, log) := congrArg (·, log) hs₁
  rw [hs₁] at hawaken
  rw [← hawaken] at hrunner
  have hresume : h.logged.resume (h.logging run) id (s, log) =
      h.logged.settle id t.wakeTime (h.scheduler s).tick (run body s₁).2
        ((run body s₁).1, log ++ [(id, body)]) := by
    unfold resume
    simp only [show h.logged.scheduler (s, log) = h.scheduler s from rfl, ht, hb, hlogged, logging,
      hrunner]
  have hrun := (hp.scheduler body t.wakeTime s₁ hP).trans hawaken
  rw [hp.outcome body t.wakeTime s₁ hP, settle_logged] at hresume
  have htask : (h.scheduler (run body s₁).1).task? id = some { t with body := .running } := by
    rw [hrun, Scheduler.task?_modify_self, ht]
    rfl
  obtain ⟨s', tick, hsettle, hs', htick⟩ :=
    settle_leads (t := { t with body := .running }) hh hleads htask hd (h.scheduler s).tick
  refine ⟨s', tick, ?_, ?_, htick⟩
  · rw [hresume, hsettle]
  · rw [hs', hrun, Scheduler.modify_modify]
    rfl

/-! ## The runs of one task -/

theorem isDue_iff (c : Scheduler Rat β) (t : Task Rat β) :
    c.isDue t = true ↔ t.wakeTick ≤ c.tick ∧ t.wakeTime ≤ c.time + Clock.slack Rat := by
  unfold Scheduler.isDue
  rw [Bool.and_eq_true, decide_eq_true_iff]
  exact and_congr_right fun _ => decide_eq_true_iff

/-- A task that is due is run, and then as long as it is due. -/
theorem runDue_due (g : Host σ Rat β) (run : β → σ → σ × Outcome Rat β)
    (ht : (g.scheduler s).task? id = some t) (hd : t.done = false)
    (htick : t.wakeTick ≤ (g.scheduler s).tick)
    (htime : t.wakeTime ≤ (g.scheduler s).time + Clock.slack Rat) (fuel : Nat) :
    g.runDue run id (fuel + 1) s = (g.resume run id s).andThen (g.runDue run id fuel) := by
  have hdue := (isDue_iff (g.scheduler s) t).2 ⟨htick, htime⟩
  simp [runDue, ht, hd, hdue]

/-- The rounds are enough if every body is run along its course in no more of them. -/
def Suffices (turn : β → Outcome Rat β) (P : β → Rat → Prop) (rounds : β → Nat) (latest : Rat) :
    Prop :=
  ∀ body due, P body due → ∃ steps left due', TaskCourse turn latest body due steps left due' ∧
    steps.length ≤ rounds body

theorem Suffices.earlier {rounds : β → Nat} {early late : Rat}
    (hfuel : Suffices turn P rounds late) (hearly : early ≤ late) :
    Suffices turn P rounds early := by
  intro body due hP
  obtain ⟨steps, left, due', hc, hlength⟩ := hfuel body due hP
  obtain ⟨steps', left', due'', hc', hlength'⟩ := hc.earlier hearly
  exact ⟨steps', left', due'', hc', Nat.le_trans hlength' hlength⟩

/-! ## A round of tasks -/

/-- What a round through tasks does to a scheduler that makes these runs: each of the tasks that
waits takes its course, and nothing else changes. -/
structure Rounded (turn : β → Outcome Rat β) (latest : Rat) (ids : List TaskId)
    (runs : List (TaskId × β)) (c c' : Scheduler Rat β) : Prop where
  time : c'.time = c.time
  tick : c'.tick = c.tick
  live : c'.live = c.live
  resting : ∀ id, id ∉ ids ∨ (∀ t, c.task? id = some t → t.left? = none) →
    stepsOf id runs = [] ∧ c'.task? id = c.task? id
  waiting : ∀ id ∈ ids, ∀ t body, c.task? id = some t → t.left? = some body →
    ∃ left due tick, TaskCourse turn latest body t.wakeTime (stepsOf id runs) left due ∧
      c'.task? id = some (t.bring left due tick)

theorem Rounded.refl (turn : β → Outcome Rat β) (latest : Rat) (c : Scheduler Rat β) :
    Rounded turn latest [] [] c c :=
  ⟨rfl, rfl, rfl, fun _ _ => ⟨rfl, rfl⟩, by simp⟩

/-- A round goes through its tasks one by one. -/
theorem Rounded.cons {latest : Rat} {ids : List TaskId} {runs₁ runs₂ : List (TaskId × β)}
    {c c₁ c₂ : Scheduler Rat β} (h₁ : Rounded turn latest [id] runs₁ c c₁) (hid : id ∉ ids)
    (h₂ : Rounded turn latest ids runs₂ c₁ c₂) :
    Rounded turn latest (id :: ids) (runs₁ ++ runs₂) c c₂ where
  time := h₂.time.trans h₁.time
  tick := h₂.tick.trans h₁.tick
  live := h₂.live.trans h₁.live
  resting j hj := by
    obtain ⟨hsteps₁, htask₁⟩ := h₁.resting j (hj.imp_left fun hj => by simp_all)
    obtain ⟨hsteps₂, htask₂⟩ :=
      h₂.resting j (hj.imp (fun hj => by simp_all) fun hl => by rwa [htask₁])
    rw [stepsOf_append, hsteps₁, hsteps₂, htask₂, htask₁]
    exact ⟨rfl, rfl⟩
  waiting j hj t body ht hl := by
    rw [stepsOf_append]
    by_cases hje : j = id
    · subst hje
      obtain ⟨left, due, tick, hc, htask₁⟩ := h₁.waiting j (by simp) t body ht hl
      obtain ⟨hsteps₂, htask₂⟩ := h₂.resting j (.inl hid)
      refine ⟨left, due, tick, ?_, by rw [htask₂, htask₁]⟩
      rw [hsteps₂, List.append_nil]
      exact hc
    · have hmem : j ∈ ids := (List.mem_cons.1 hj).resolve_left hje
      obtain ⟨hsteps₁, htask₁⟩ := h₁.resting j (.inl (by simpa using hje))
      rw [hsteps₁, List.nil_append]
      exact h₂.waiting j hmem t body (htask₁.trans ht) hl

/-- A task is ready for a round: it is done, or it waits and keeps to itself. -/
def Ready (P : β → Rat → Prop) (c : Scheduler Rat β) (id : TaskId) : Prop :=
  ∃ t, c.task? id = some t ∧ (t.done = true ∨
    ∃ body, t.left? = some body ∧ P body t.wakeTime ∧ t.wakeTick ≤ c.tick)

end

end Host
end VisualNovel
