import VisualNovel.Proofs.Scheduler.Conduct
import VisualNovel.Proofs.Scheduler.Updates
/-!
# The turns of an update

In an update of a host that conducts itself, what happens to the tasks can be recorded
(`Host.Conduct.recording`), which makes no difference to what is done (`Host.Conduct.records`). The
tasks that are listed when the update begins have their turns one after the other. One that is due
takes its turn (`TakesTurn`): it is run once more when only tasks before it have been, unless it has
been cancelled by then.

What is kept from one run to the next is `Upkeep`; what one task does in its turn to the others is
`Served`. One lemma leads from a run (`serve_resume`) to a turn (`serve_due`), to a round
(`serve_round`), and to an update (`serve_update`).
-/
namespace VisualNovel
variable {σ β : Type}

/-- A task is run once more behind tasks before it only, unless it is cancelled by then. -/
def TakesTurn (before : List TaskId) (resume : Note Rat) (new : List (Note Rat)) : Prop :=
  ∃ new₁ new₂, new = new₁ ++ new₂ ∧ (∀ n ∈ new₁, n.what = .resume → n.task ∈ before) ∧
    ((∃ n ∈ new₁, n.task = resume.task ∧ n.what = .cancel) ∨ ∃ rest, new₂ = resume :: rest)

namespace TakesTurn
variable {before : List TaskId} {resume : Note Rat} {new new' : List (Note Rat)}

theorem first (resume : Note Rat) (rest : List (Note Rat)) : TakesTurn [] resume (resume :: rest) :=
  ⟨[], resume :: rest, rfl, by simp, .inr ⟨rest, rfl⟩⟩

theorem append (h : TakesTurn before resume new) (rest : List (Note Rat)) :
    TakesTurn before resume (new ++ rest) := by
  obtain ⟨new₁, new₂, rfl, hbefore, hturn⟩ := h
  refine ⟨new₁, new₂ ++ rest, List.append_assoc .., hbefore, hturn.imp_right ?_⟩
  rintro ⟨rest', rfl⟩
  exact ⟨rest' ++ rest, rfl⟩

/-- Another task has its turn before. -/
theorem cons {j : TaskId} (hnew : ∀ n ∈ new, n.what = .resume → n.task = j)
    (h : TakesTurn before resume new') : TakesTurn (j :: before) resume (new ++ new') := by
  obtain ⟨new₁, new₂, rfl, hbefore, hturn⟩ := h
  refine ⟨new ++ new₁, new₂, (List.append_assoc ..).symm, fun n hn hwhat => ?_,
    hturn.imp_left ?_⟩
  · rcases List.mem_append.1 hn with hn | hn
    · exact List.mem_cons.2 (.inl (hnew n hn hwhat))
    · exact List.mem_cons_of_mem _ (hbefore n hn hwhat)
  · rintro ⟨n, hn, hcancel⟩
    exact ⟨n, List.mem_append_right _ hn, hcancel⟩

/-- Another task has its turn before, and cancels this one in it. -/
theorem cancelled {j : TaskId} (hnew : ∀ n ∈ new, n.what = .resume → n.task = j)
    (hcancel : ∃ n ∈ new, n.task = resume.task ∧ n.what = .cancel) (before : List TaskId) :
    TakesTurn (j :: before) resume new :=
  ⟨new, [], (List.append_nil _).symm, fun n hn hwhat => List.mem_cons.2 (.inl (hnew n hn hwhat)),
    .inl hcancel⟩

end TakesTurn

namespace Scheduler

/-- What is kept from run to run in a round through tasks. -/
structure Upkeep (ids : List TaskId) (es : List (Note Rat)) (c : Scheduler Rat β) : Prop where
  ledger : Ledger es c
  idle : c.Idle
  bound : ∀ id ∈ ids, id < c.tasks.length
  begun : ∀ n ∈ es, n.task ∈ ids → n.what = .start → n.tick < c.tick

/-- What a task has done in its turn: other tasks are as they were or are cancelled. -/
structure Served (id : TaskId) (c : Scheduler Rat β) (new : List (Note Rat))
    (c' : Scheduler Rat β) : Prop where
  time : c'.time = c.time
  tick : c'.tick = c.tick
  others : ∀ j t, j ≠ id → c.task? j = some t →
    c'.task? j = some t ∨ ∃ n ∈ new, n.task = j ∧ n.what = .cancel
  resumes : ∀ n ∈ new, n.what = .resume → n.task = id
  now : ∀ n ∈ new, n.time = c.time ∧ n.tick = c.tick

variable {c c' c'' : Scheduler Rat β} {id : TaskId} {t : Task Rat β}
  {es new new' : List (Note Rat)}

/-- Whether a task that is not done may be run in this tick at this time. -/
structure Ripe (c : Scheduler Rat β) (t : Task Rat β) : Prop where
  alive : t.done = false
  tick : t.wakeTick ≤ c.tick
  time : t.wakeTime ≤ c.time + Clock.slack Rat

theorem Served.refl (id : TaskId) (c : Scheduler Rat β) : Served id c [] c :=
  ⟨rfl, rfl, fun _ _ _ ht => .inl ht, by simp, by simp⟩

theorem Served.trans (h : Served id c new c') (h' : Served id c' new' c'') :
    Served id c (new ++ new') c'' where
  time := h'.time.trans h.time
  tick := h'.tick.trans h.tick
  others j t hj ht := by
    rcases h.others j t hj ht with ht' | ⟨n, hn, hwhat⟩
    · rcases h'.others j t hj ht' with ht'' | ⟨n, hn, hwhat⟩
      · exact .inl ht''
      · exact .inr ⟨n, List.mem_append_right _ hn, hwhat⟩
    · exact .inr ⟨n, List.mem_append_left _ hn, hwhat⟩
  resumes n hn hwhat := by
    rcases List.mem_append.1 hn with hn | hn
    · exact h.resumes n hn hwhat
    · exact h'.resumes n hn hwhat
  now n hn := by
    rcases List.mem_append.1 hn with hn | hn
    · exact h.now n hn
    · rw [← h.time, ← h.tick]
      exact h'.now n hn

/-- A task that is ripe takes its turn behind that of another, which cannot hinder it but by
cancelling it. -/
theorem Served.takesTurn {before : List TaskId} {j : TaskId} (h : Served id c new c') (hj : j ≠ id)
    (ht : c.task? j = some t) (hripe : c.Ripe t)
    (hnext : c'.task? j = some t → c'.Ripe t → TakesTurn before (c'.note j .resume) new') :
    TakesTurn (id :: before) (c.note j .resume) (new ++ new') := by
  have hnote : c'.note j .resume = c.note j .resume := by
    unfold note
    rw [h.time, h.tick]
  rcases h.others j t hj ht with ht' | hcancel
  · have hripe' : c'.Ripe t :=
      ⟨hripe.alive, by rw [h.tick]; exact hripe.tick, by rw [h.time]; exact hripe.time⟩
    have hturn := hnext ht' hripe'
    rw [hnote] at hturn
    exact hturn.cons h.resumes
  · exact (TakesTurn.cancelled h.resumes hcancel before).append new'

/-- What was not being run is not left being run. -/
theorem Sequel.not_running (h : c.Sequel new c') {j : TaskId}
    (hj : ∀ u, c.task? j = some u → u.body ≠ .running) :
    ∀ u, c'.task? j = some u → u.body ≠ .running := by
  intro u hu
  rcases Nat.lt_or_ge j c.tasks.length with hlt | hge
  · obtain ⟨v, hv⟩ := Scheduler.exists_task? hlt
    rcases h.old j v hv with ⟨hu', -⟩ | ⟨-, hu', -⟩
    · rw [hu'] at hu
      cases hu
      exact hj u hv
    · rw [hu'] at hu
      cases hu
      exact fun hr => hj v hv (v.cancel_running_iff.1 hr)
  · exact h.settled j u hge hu

theorem Sequel.idle (h : c.Sequel new c') (hidle : c.Idle) : c'.Idle := fun j =>
  h.not_running (hidle j)

/-- The tasks whose starts are noted are new. -/
theorem Sequel.starts (h : c.Sequel new c') {n : Note Rat} (hn : n ∈ new)
    (hwhat : n.what = .start) : c.tasks.length ≤ n.task := by
  by_contra hlt
  obtain ⟨t, ht⟩ := Scheduler.exists_task? (Nat.not_le.1 hlt)
  have hmem : n ∈ notesOf n.task new := mem_notesOf.2 ⟨hn, rfl⟩
  rcases h.old n.task t ht with ⟨-, hnotes⟩ | ⟨-, -, hnotes⟩
  · rw [hnotes] at hmem
    cases hmem
  · rw [hnotes] at hmem
    rw [List.mem_singleton.1 hmem] at hwhat
    cases hwhat

/-! ## One run of a task -/

/-- The scheduler while a task is run once more. -/
def awaken (id : TaskId) (c : Scheduler Rat β) : Scheduler Rat β :=
  c.modify id fun t => { t with body := .running }

theorem task?_awaken_self (ht : c.task? id = some t) :
    (c.awaken id).task? id = some { t with body := .running } := by
  unfold awaken
  rw [task?_modify_self, ht]
  rfl

theorem task?_awaken_of_ne {j : TaskId} (hj : j ≠ id) : (c.awaken id).task? j = c.task? j :=
  task?_modify_of_ne c _ hj

theorem length_awaken (c : Scheduler Rat β) (id : TaskId) :
    (c.awaken id).tasks.length = c.tasks.length := List.length_modify ..

/-- A task that is ripe waits. -/
theorem Upkeep.waits {ids : List TaskId} (h : c.Upkeep ids es) (ht : c.task? id = some t)
    (hripe : c.Ripe t) : ∃ body, t.left? = some body ∧ id ∈ c.live := by
  rcases h.ledger.listed.listed id t ht hripe.alive with hb | ⟨⟨body, hleft, -⟩, hlive⟩
  · exact absurd hb (h.idle id t ht)
  · exact ⟨body, hleft, hlive⟩

theorem Upkeep.awaken {ids : List TaskId} (h : c.Upkeep ids es) (hid : id ∈ ids)
    (ht : c.task? id = some t) (hripe : c.Ripe t) :
    Ledger (es ++ [c.note id .resume]) (c.awaken id) := by
  obtain ⟨body, hleft, -⟩ := h.waits ht hripe
  refine h.ledger.awaken ht hleft hripe.tick hripe.time fun n hn hwhat => ?_
  obtain ⟨hmem, rfl⟩ := mem_notesOf.1 hn
  exact h.begun n hmem hid hwhat

/-- A task has been run once more. -/
theorem Served.settle (h : (c.awaken id).Sequel new c') (hnew : ∀ n ∈ new, n.what ≠ .resume)
    (hnow : ∀ n ∈ new, n.time = c.time ∧ n.tick = c.tick) (o : Outcome Rat β) :
    Served id c (c.note id .resume :: new ++ [c.note id o.happening])
      (c'.modify id (Task.settle c.tick o)) where
  time := h.time
  tick := h.tick
  others j u hj hu := by
    rw [task?_modify_of_ne c' _ hj]
    rcases h.old j u ((task?_awaken_of_ne hj).trans hu) with ⟨hu', -⟩ | ⟨-, -, hnotes⟩
    · exact .inl hu'
    · have hmem : (c.awaken id).note j .cancel ∈ notesOf j new := by
        rw [hnotes]
        exact List.mem_singleton.2 rfl
      refine .inr ⟨(c.awaken id).note j .cancel, ?_, rfl, rfl⟩
      exact List.mem_append_left _ (List.mem_cons_of_mem _ (mem_notesOf.1 hmem).1)
  resumes n hn hwhat := by
    simp only [List.mem_append, List.mem_cons, List.not_mem_nil, or_false] at hn
    rcases hn with (rfl | hn) | rfl
    · rfl
    · exact absurd hwhat (hnew n hn)
    · exact absurd hwhat o.happening_ne_resume
  now n hn := by
    simp only [List.mem_append, List.mem_cons, List.not_mem_nil, or_false] at hn
    rcases hn with (rfl | hn) | rfl
    · exact ⟨rfl, rfl⟩
    · exact hnow n hn
    · exact ⟨rfl, rfl⟩

theorem Upkeep.settle {ids : List TaskId} (h : c.Upkeep ids es)
    (hsequel : (c.awaken id).Sequel new c') {o : Outcome Rat β}
    (hledger : Ledger (es ++ (c.note id .resume :: new ++ [c.note id o.happening]))
      (c'.modify id (Task.settle c.tick o))) :
    (c'.modify id (Task.settle c.tick o)).Upkeep ids
      (es ++ (c.note id .resume :: new ++ [c.note id o.happening])) where
  ledger := hledger
  idle j u hu := by
    by_cases hj : j = id
    · subst hj
      rw [task?_modify_self] at hu
      obtain ⟨t, -, rfl⟩ := Option.map_eq_some_iff.1 hu
      exact t.settle_ne_running c.tick o
    · rw [task?_modify_of_ne c' _ hj] at hu
      refine hsequel.not_running (fun v hv => ?_) u hu
      rw [task?_awaken_of_ne hj] at hv
      exact h.idle j v hv
  bound j hj := by
    have hlen : (c'.modify id (Task.settle c.tick o)).tasks.length = c'.tasks.length :=
      List.length_modify ..
    have hle := hsequel.size
    rw [length_awaken] at hle
    rw [hlen]
    exact Nat.lt_of_lt_of_le (h.bound j hj) hle
  begun n hn hmem hwhat := by
    have htick : (c'.modify id (Task.settle c.tick o)).tick = c.tick := hsequel.tick
    rw [htick]
    simp only [List.mem_append, List.mem_cons, List.not_mem_nil, or_false] at hn
    rcases hn with hn | (rfl | hn) | rfl
    · exact h.begun n hn hmem hwhat
    · cases hwhat
    · -- What was started in this run is none of the tasks of the round.
      have hle := hsequel.starts hn hwhat
      rw [length_awaken] at hle
      exact absurd (h.bound _ hmem) (Nat.not_lt.2 hle)
    · exact absurd hwhat o.happening_ne_start

end Scheduler

namespace Host
variable {h : Host σ Rat β} {run : β → σ → σ × Outcome Rat β} {s s' : σ} {id : TaskId}
  {t : Task Rat β} {new es : List (Note Rat)}

/-- No task is run once more while another is being run. -/
theorem Acts.not_resume (hs : h.Acts new s s') : ∀ n ∈ new, n.what ≠ .resume := by
  induction hs with
  | refl => simp
  | beside _ _ ih => exact ih
  | @start inner later s s' name run _ _ ihrun ihlater =>
    intro n hn
    simp only [List.mem_append, List.mem_cons, List.not_mem_nil, or_false] at hn
    rcases hn with ((rfl | hn) | rfl) | hn
    · exact nofun
    · exact ihrun n hn
    · exact Outcome.happening_ne_resume _
    · exact ihlater n hn
  | cancel _ _ _ _ ihclose ihlater =>
    intro n hn
    simp only [List.mem_append, List.mem_cons] at hn
    rcases hn with (rfl | hn) | hn
    · exact nofun
    · exact ihclose n hn
    · exact ihlater n hn

/-- What is done is done now. -/
theorem Acts.now (hh : h.Stores) (hs : h.Acts new s s') :
    ∀ n ∈ new, n.time = (h.scheduler s).time ∧ n.tick = (h.scheduler s).tick := by
  induction hs with
  | refl => simp
  | beside hsame _ ih =>
    rw [← hsame]
    exact ih
  | @start inner later s s' name run hrun _ ihrun ihlater =>
    have hinner := hrun.sequel hh
    have hstart := (Acts.startOne name run hrun).sequel hh
    rw [hh.scheduler_modify] at hinner ihrun
    rw [hstart.time, hstart.tick] at ihlater
    intro n hn
    simp only [List.mem_append, List.mem_cons, List.not_mem_nil, or_false] at hn
    rcases hn with ((rfl | hn) | rfl) | hn
    · exact ⟨rfl, rfl⟩
    · exact ihrun n hn
    · exact ⟨rfl, rfl⟩
    · exact ihlater n hn
  | @cancel inner later s s' id t ht hd hclose _ ihclose ihlater =>
    have hcancel := (Acts.cancel ht hd hclose (.refl _)).sequel hh
    rw [hh.scheduler_modify] at ihclose
    rw [hcancel.time, hcancel.tick] at ihlater
    intro n hn
    simp only [List.mem_append, List.mem_cons] at hn
    rcases hn with (rfl | hn) | hn
    · exact ⟨rfl, rfl⟩
    · exact ihclose n hn
    · exact ihlater n hn

/-- A task that waits is run once more, and the end of its run is settled. -/
theorem resume_eq {body : β} {s₂ : σ} {o : Outcome Rat β}
    (ht : (h.scheduler s).task? id = some t) (hleft : t.left? = some body)
    (hrun : run body (h.modify (·.awaken id) s) = (s₂, o)) :
    h.resume run id s = h.settle id t.wakeTime (h.scheduler s).tick o s₂ := by
  have hb := (Task.left?_eq_some.1 hleft).1
  have hbegin : run body (h.modify (·.modify id fun t => { t with body := .running }) s) =
      (s₂, o) := hrun
  simp only [Host.resume, ht, hb, hbegin]

/-- That does not break off, if the body does nothing but start and cancel tasks. -/
theorem resume_sequel (hh : h.Stores) {body : β} {s₂ : σ} {o : Outcome Rat β}
    (ht : (h.scheduler s).task? id = some t) (hleft : t.left? = some body)
    (hrun : run body (h.modify (·.awaken id) s) = (s₂, o))
    (hsequel : ((h.scheduler s).awaken id).Sequel new (h.scheduler s₂)) :
    ∃ s₃, h.resume run id s = (s₃, none) ∧
      h.scheduler s₃ = (h.scheduler s₂).modify id (Task.settle (h.scheduler s).tick o) := by
  obtain ⟨t₂, ht₂, -, hwake⟩ := hsequel.running (Scheduler.task?_awaken_self ht) rfl
  obtain ⟨s₃, hsettle, hs₃⟩ := settle_eq hh ht₂ (h.scheduler s).tick o
  rw [show t₂.wakeTime = t.wakeTime from hwake] at hsettle
  exact ⟨s₃, (resume_eq ht hleft hrun).trans hsettle, hs₃⟩

namespace Conduct

/-- Runs a body once more and records that it is run, what it does, and how it ends. -/
def recording (k : h.Conduct run) (body : β) (w : σ × List (Note Rat)) :
    (σ × List (Note Rat)) × Outcome Rat β :=
  let c := h.scheduler w.1
  let r := run body w.1
  ((r.1, w.2 ++ (c.note c.runner .resume :: k.notes body w.1 ++
    [c.note c.runner r.2.happening])), r.2)

/-- To record makes no difference to what is done. -/
theorem records (k : h.Conduct run) : Records k.recording run := fun _ _ _ => ⟨_, rfl⟩

/-- The notes of a task that is run once more. -/
def again (k : h.Conduct run) (id : TaskId) (body : β) (s : σ) : List (Note Rat) :=
  let s₁ := h.modify (·.awaken id) s
  (h.scheduler s).note id .resume :: k.notes body s₁ ++
    [(h.scheduler s).note id (run body s₁).2.happening]

/-- Something that is kept whenever a task is run once more, and does not lie in the clock. -/
structure Keeps (k : h.Conduct run) (J : List (Note Rat) → σ → Prop) : Prop where
  resume : ∀ es s id t body, J es s → (h.scheduler s).Idle → (h.scheduler s).task? id = some t →
    t.left? = some body → Ledger (es ++ [(h.scheduler s).note id .resume])
      ((h.scheduler s).awaken id) → J (es ++ k.again id body s) (h.resume run id s).1
  reschedule : ∀ es s c, J es s → c.tasks = (h.scheduler s).tasks → J es (h.withScheduler c s)

theorem keeps_true (k : h.Conduct run) : k.Keeps fun _ _ => True :=
  ⟨fun _ _ _ _ _ _ _ _ _ _ => trivial, fun _ _ _ _ _ => trivial⟩

/-! ## One run -/

/-- What is recorded when a task is run once more. -/
theorem resume_recording (hh : h.Stores) (k : h.Conduct run) (es : List (Note Rat)) {body : β}
    (hidle : (h.scheduler s).Idle) (ht : (h.scheduler s).task? id = some t)
    (hleft : t.left? = some body) :
    (h.beside _).resume k.recording id (s, es) =
      (((h.resume run id s).1, es ++ k.again id body s), (h.resume run id s).2) := by
  have hb := (Task.left?_eq_some.1 hleft).1
  obtain ⟨s₁, hs₁⟩ : ∃ s₁, h.modify (·.awaken id) s = s₁ := ⟨_, rfl⟩
  have hawaken : h.scheduler s₁ = (h.scheduler s).awaken id := by
    rw [← hs₁, hh.scheduler_modify]
  have hrunner : (h.scheduler s₁).runner = id := by
    rw [hawaken]
    exact Scheduler.runner_awaken hidle ht
  have hnote (what : Happening Rat) :
      (h.scheduler s₁).note id what = (h.scheduler s).note id what := by
    rw [hawaken]
    rfl
  have hmodify : h.modify (·.modify id fun t => { t with body := .running }) s = s₁ := hs₁
  have hbeside : (h.beside (List (Note Rat))).modify
      (·.modify id fun t => { t with body := .running }) (s, es) = (s₁, es) :=
    congrArg (·, es) hs₁
  simp only [Host.resume,
    show (h.beside (List (Note Rat))).scheduler (s, es) = h.scheduler s from rfl, ht, hb, hmodify, hbeside, recording, hrunner, hnote, settle_beside, again, hs₁]

/-- A task that may be run is run once more without breaking off; it does to the others what its
body does, and the notes remain a ledger. -/
theorem serve_resume (hh : h.Stores) (k : h.Conduct run) {J : List (Note Rat) → σ → Prop}
    (hJ : k.Keeps J) {ids : List TaskId} (hup : (h.scheduler s).Upkeep ids es) (hs : J es s)
    (hid : id ∈ ids) (ht : (h.scheduler s).task? id = some t) (hripe : (h.scheduler s).Ripe t) :
    ∃ s' rest, (h.beside _).resume k.recording id (s, es) =
        ((s', es ++ ((h.scheduler s).note id .resume :: rest)), none) ∧
      (h.scheduler s').Upkeep ids (es ++ ((h.scheduler s).note id .resume :: rest)) ∧
      J (es ++ ((h.scheduler s).note id .resume :: rest)) s' ∧
      (h.scheduler s).Served id ((h.scheduler s).note id .resume :: rest) (h.scheduler s') := by
  obtain ⟨body, hleft, hlive⟩ := hup.waits ht hripe
  -- The body is awakened, …
  obtain ⟨s₁, hs₁⟩ : ∃ s₁, h.modify (·.awaken id) s = s₁ := ⟨_, rfl⟩
  have hawaken : h.scheduler s₁ = (h.scheduler s).awaken id := by
    rw [← hs₁, hh.scheduler_modify]
  have hledger₁ := hup.awaken hid ht hripe
  have hkept := hJ.resume es s id t body hs hup.idle ht hleft hledger₁
  have ht₁ := Scheduler.task?_awaken_self ht
  rw [← hawaken] at hledger₁ ht₁
  -- … it does what it does, …
  obtain ⟨⟨s₂, o⟩, hs₂⟩ : ∃ r, run body s₁ = r := ⟨_, rfl⟩
  have hacts := k.acts body s₁
  rw [hs₂] at hacts
  have hsequel : (h.scheduler s₁).Sequel (k.notes body s₁) (h.scheduler s₂) := hacts.sequel hh
  have hledger₂ := hacts.ledger hh hledger₁
  obtain ⟨t₂, ht₂, hb₂, -⟩ := hsequel.running ht₁ rfl
  have hlive₂ : id ∈ (h.scheduler s₂).live := hsequel.mem_live (by rw [hawaken]; exact hlive)
  rw [hawaken] at hsequel
  have hnote₂ : (h.scheduler s₂).note id o.happening = (h.scheduler s).note id o.happening := by
    unfold Scheduler.note
    rw [hsequel.time, hsequel.tick]
    rfl
  -- … and its run is settled.
  obtain ⟨s₃, hresume, hs₃⟩ :=
    resume_sequel hh ht hleft ((congrArg (run body) hs₁).trans hs₂) hsequel
  have hledger₃ := hledger₂.settle ht₂ hb₂ hlive₂ o
  rw [hnote₂, show (h.scheduler s₂).tick = (h.scheduler s).tick from hsequel.tick] at hledger₃
  have hagain : k.again id body s = (h.scheduler s).note id .resume :: (k.notes body s₁ ++
      [(h.scheduler s).note id o.happening]) := by
    simp only [again, hs₁, hs₂, List.cons_append]
  have hrecord := k.resume_recording hh es hup.idle ht hleft
  rw [hresume, hagain] at hrecord hkept
  refine ⟨s₃, _, hrecord, ?_, hkept, ?_⟩
  · rw [hs₃]
    exact hup.settle hsequel (by simpa using hledger₃)
  · rw [hs₃]
    refine .settle hsequel hacts.not_resume (fun n hn => ?_) o
    have hnow := hacts.now hh n hn
    rw [hawaken] at hnow
    exact hnow

/-! ## One turn -/

/-- A task that is not ripe is not run. -/
theorem runDue_unripe (g : Host σ Rat β) (run : β → σ → σ × Outcome Rat β)
    (hripe : ∀ t, (g.scheduler s).task? id = some t → ¬(g.scheduler s).Ripe t) (fuel : Nat) :
    g.runDue run id fuel s = (s, none) := by
  cases fuel with
  | zero => rfl
  | succ fuel =>
    unfold Host.runDue
    cases ht : (g.scheduler s).task? id with
    | none => simp only [ht]
    | some t =>
      have hrun : ¬((!t.done && (g.scheduler s).isDue t) = true) := by
        rw [Bool.and_eq_true, Bool.not_eq_true', isDue_iff]
        rintro ⟨hd, htick, htime⟩
        exact hripe t ht ⟨hd, htick, htime⟩
      simp only [ht, if_neg hrun]

/-- In its turn a task is run as long as it may be, if it is at all. -/
theorem serve_due (hh : h.Stores) (k : h.Conduct run) {J : List (Note Rat) → σ → Prop}
    (hJ : k.Keeps J) {ids : List TaskId} (hid : id ∈ ids) (fuel : Nat)
    (hup : (h.scheduler s).Upkeep ids es) (hs : J es s) :
    ∃ s' new, (h.beside _).runDue k.recording id fuel (s, es) = ((s', es ++ new), none) ∧
      (h.scheduler s').Upkeep ids (es ++ new) ∧ J (es ++ new) s' ∧
      (h.scheduler s).Served id new (h.scheduler s') ∧
      (0 < fuel → ∀ t, (h.scheduler s).task? id = some t → (h.scheduler s).Ripe t →
        ∃ rest, new = (h.scheduler s).note id .resume :: rest) := by
  induction fuel generalizing s es with
  | zero =>
    exact ⟨s, [], by rw [List.append_nil]; rfl, by rwa [List.append_nil], by rwa [List.append_nil],
      .refl id _, fun hpos => absurd hpos (Nat.lt_irrefl 0)⟩
  | succ fuel ih =>
    by_cases hripe : ∃ t, (h.scheduler s).task? id = some t ∧ (h.scheduler s).Ripe t
    · obtain ⟨t, ht, hripe⟩ := hripe
      obtain ⟨s₁, rest₁, hresume, hup₁, hs₁, hserved₁⟩ := serve_resume hh k hJ hup hs hid ht hripe
      obtain ⟨s', new, hdue, hup', hs', hserved', -⟩ := ih hup₁ hs₁
      refine ⟨s', (h.scheduler s).note id .resume :: rest₁ ++ new, ?_, ?_, ?_,
        hserved₁.trans hserved', fun _ _ _ _ => ⟨rest₁ ++ new, rfl⟩⟩
      · rw [runDue_due (h.beside _) k.recording (s := (s, es)) ht hripe.alive hripe.tick hripe.time,
          hresume, Attempt.andThen_none, hdue, List.append_assoc]
      · rw [← List.append_assoc]
        exact hup'
      · rw [← List.append_assoc]
        exact hs'
    · have hnone : ∀ t, (h.scheduler s).task? id = some t → ¬(h.scheduler s).Ripe t :=
        fun t ht hr => hripe ⟨t, ht, hr⟩
      refine ⟨s, [], ?_, by rwa [List.append_nil], by rwa [List.append_nil], .refl id _,
        fun _ t ht hr => absurd hr (hnone t ht)⟩
      rw [List.append_nil]
      exact runDue_unripe (h.beside _) k.recording (s := (s, es)) hnone (fuel + 1)

/-! ## One round -/

/-- Each task of a round that is ripe when the round begins takes its turn. -/
theorem serve_round (hh : h.Stores) (k : h.Conduct run) {J : List (Note Rat) → σ → Prop}
    (hJ : k.Keeps J) {rounds : β → Nat} (hrounds : ∀ body, 0 < rounds body)
    {ids todo : List TaskId} (htodo : ∀ id ∈ todo, id ∈ ids) (hnodup : todo.Nodup)
    (hup : (h.scheduler s).Upkeep ids es) (hs : J es s) :
    ∃ s' new, Attempt.inTurn (fun id w => (h.beside _).runDue k.recording id
        ((h.beside _).roundsLeft rounds id w) w) todo (s, es) = ((s', es ++ new), none) ∧
      (h.scheduler s').Upkeep ids (es ++ new) ∧ J (es ++ new) s' ∧
      (h.scheduler s').time = (h.scheduler s).time ∧
      (h.scheduler s').tick = (h.scheduler s).tick ∧
      (∀ n ∈ new, n.time = (h.scheduler s).time ∧ n.tick = (h.scheduler s).tick) ∧
      ∀ before id after t, todo = before ++ id :: after → (h.scheduler s).task? id = some t →
        (h.scheduler s).Ripe t → TakesTurn before ((h.scheduler s).note id .resume) new := by
  induction todo generalizing s es with
  | nil =>
    exact ⟨s, [], by rw [List.append_nil]; rfl, by rwa [List.append_nil], by rwa [List.append_nil],
      rfl, rfl, by simp, fun before id after t htodo => by simp at htodo⟩
  | cons j todo ih =>
    obtain ⟨hj, hnodup'⟩ := List.nodup_cons.1 hnodup
    have hfuel : 0 < (h.beside (List (Note Rat))).roundsLeft rounds j (s, es) := by
      unfold Host.roundsLeft
      split
      · exact hrounds _
      · exact Nat.one_pos
    obtain ⟨s₁, new₁, hdue, hup₁, hs₁, hserved, hfirst⟩ :=
      serve_due hh k hJ (htodo j (List.mem_cons_self ..))
        ((h.beside (List (Note Rat))).roundsLeft rounds j (s, es)) hup hs
    obtain ⟨s', new₂, hround, hup', hs', htime, htick, hnow, hturns⟩ :=
      ih (fun id hid => htodo id (List.mem_cons_of_mem _ hid)) hnodup' hup₁ hs₁
    rw [hserved.time, hserved.tick] at hnow
    refine ⟨s', new₁ ++ new₂, ?_, ?_, ?_, htime.trans hserved.time, htick.trans hserved.tick,
      fun n hn => (List.mem_append.1 hn).elim (hserved.now n) (hnow n), ?_⟩
    · unfold Attempt.inTurn
      rw [hdue, Attempt.andThen_none, hround, List.append_assoc]
    · rw [← List.append_assoc]
      exact hup'
    · rw [← List.append_assoc]
      exact hs'
    · intro before id after t hsplit ht hripe
      rcases List.cons_eq_append_iff.1 hsplit with ⟨rfl, heq⟩ | ⟨before', rfl, rfl⟩
      · obtain ⟨rfl, rfl⟩ := List.cons.inj heq
        obtain ⟨rest, rfl⟩ := hfirst hfuel t ht hripe
        exact (TakesTurn.first _ rest).append new₂
      · have hne : id ≠ j := by
          rintro rfl
          exact hj (List.mem_append_right _ (List.mem_cons_self ..))
        exact hserved.takesTurn hne ht hripe fun ht₁ hripe₁ =>
          hturns before' id after t rfl ht₁ hripe₁

/-! ## One update -/

/-- In an update each task takes its turn that is ripe when the clock has advanced. -/
theorem serve_update (hh : h.Stores) (k : h.Conduct run) {J : List (Note Rat) → σ → Prop}
    (hJ : k.Keeps J) {rounds : β → Nat} (hrounds : ∀ body, 0 < rounds body)
    (hes : Ledger es (h.scheduler s)) (hidle : (h.scheduler s).Idle) (hs : J es s) {dt : Rat}
    (hdt : 0 ≤ dt) :
    ∃ s' new, (h.beside _).update k.recording rounds dt (s, es) = ((s', es ++ new), none) ∧
      Ledger (es ++ new) (h.scheduler s') ∧ (h.scheduler s').Idle ∧ J (es ++ new) s' ∧
      (h.scheduler s').time = (h.scheduler s).time + dt ∧
      (h.scheduler s').tick = (h.scheduler s).tick + 1 ∧
      (∀ n ∈ new, n.time = (h.scheduler s).time + dt ∧ n.tick = (h.scheduler s).tick + 1) ∧
      ∀ before id after t, (h.scheduler s).live = before ++ id :: after →
        (h.scheduler s).task? id = some t → t.done = false →
        t.wakeTick ≤ (h.scheduler s).tick + 1 →
        t.wakeTime ≤ (h.scheduler s).time + dt + Clock.slack Rat →
        TakesTurn before ⟨(h.scheduler s).time + dt, (h.scheduler s).tick + 1, id, .resume⟩ new := by
  obtain ⟨s₀, hs₀⟩ : ∃ s₀, h.modify (fun c =>
    { c with time := (h.scheduler s).time + dt, tick := c.tick + 1 }) s = s₀ := ⟨_, rfl⟩
  have hstart : h.scheduler s₀ = { h.scheduler s with
      time := (h.scheduler s).time + dt, tick := (h.scheduler s).tick + 1 } := by
    rw [← hs₀, hh.scheduler_modify]
  have hup : (h.scheduler s₀).Upkeep (h.scheduler s).live es := by
    rw [hstart]
    refine ⟨hes.advance hidle (by linarith), hidle, hes.listed.bound, fun n hn _ _ => ?_⟩
    exact Nat.lt_succ_of_le (hes.past n hn).2
  have hs₀' : J es s₀ := by
    rw [← hs₀]
    exact hJ.reschedule es s _ hs rfl
  obtain ⟨s₁, new, hround, hup₁, hs₁, htime, htick, hnow, hturns⟩ :=
    serve_round hh k hJ hrounds (fun _ hid => hid) hes.listed.nodup hup hs₀'
  have hupdate : (h.beside _).update k.recording rounds dt (s, es) =
      ((h.sweep s₁, es ++ new), none) := by
    have hadd : Clock.add (h.scheduler s).time dt = .ok ((h.scheduler s).time + dt) := rfl
    have hbeside : (h.beside (List (Note Rat))).modify (fun c =>
        { c with time := (h.scheduler s).time + dt, tick := c.tick + 1 }) (s, es) = (s₀, es) :=
      congrArg (·, es) hs₀
    have hlive : (h.scheduler s₀).live = (h.scheduler s).live := by rw [hstart]
    simp only [Host.update,
      show (h.beside (List (Note Rat))).scheduler (s, es) = h.scheduler s from rfl, hadd, hbeside, show (h.beside (List (Note Rat))).scheduler (s₀, es) = h.scheduler s₀ from rfl,
      hlive, hround, Attempt.andThen_none]
    rfl
  have hend : h.scheduler (h.sweep s₁) = { h.scheduler s₁ with
      live := (h.scheduler s₁).live.filter fun id => !(h.scheduler s₁).isDone id } := by
    unfold Host.sweep
    rw [hh.scheduler_modify]
  rw [hstart] at hnow
  refine ⟨h.sweep s₁, new, hupdate, ?_, ?_, hJ.reschedule _ s₁ _ hs₁ rfl, ?_, ?_, hnow, ?_⟩
  · rw [hend]
    exact hup₁.ledger.sweep
  · rw [hend]
    exact hup₁.idle
  · rw [hend]
    exact htime.trans (by rw [hstart])
  · rw [hend]
    exact htick.trans (by rw [hstart])
  · intro before id after t hsplit ht hd hwakeTick hwakeTime
    have hturn := hturns before id after t hsplit (by rw [hstart]; exact ht)
      (by rw [hstart]; exact ⟨hd, hwakeTick, hwakeTime⟩)
    rw [hstart] at hturn
    exact hturn

end Conduct
end Host
end VisualNovel
