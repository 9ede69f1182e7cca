import VisualNovel.Proofs.Scheduler.Reach
import VisualNovel.Proofs.Scheduler.Turns
import VisualNovel.Proofs.Scheduler.Workshops
/-!
# Chronicles

From a scheduler without tasks on, tasks are started and cancelled and time passes in updates; what
happens to the tasks is noted (`Host.Conduct.Chronicle`). Whatever the tasks do to each other, and
however time passes as long as it does not run backwards:

* `Host.Conduct.Chronicle.tasks_wait_their_turn`: the active tasks are those that were started and
  are not done, in the order in which they first suspended; none is run when it is done; one that is
  started, or that leaves its run to the next tick, is not run again before that, and in the next
  update it has its turn; and one that fails makes no difference to the others.
* `Host.Conduct.Chronicle.delays_add_up`: a task is run when the time has come to which its delays
  add up, counted from its start, and not before. A delay that it asks for after it has waited for a
  tick counts from when it was due, and not from the tick in which it is run.
-/
namespace VisualNovel
variable {σ τ β : Type}

namespace Host

/-- When a run of a task fails, the task is over, and that is all the difference it makes: the
update or the body that ran it goes on, and the scheduler is as the run left it, that task apart. -/
structure FailsAlone [Clock τ] (h : Host σ τ β) (run : β → σ → σ × Outcome τ β) : Prop where
  resume : ∀ s id t body s', (h.scheduler s).task? id = some t → t.body = .suspended body →
    run body (h.modify (·.modify id fun t => { t with body := .running }) s) = (s', .fail) →
    ∃ s'', h.resume run id s = (s'', none) ∧
      h.scheduler s'' = (h.scheduler s').modify id Task.finish
  start : ∀ s name first s', first (h.modify (·.enrol name) s) = (s', .fail) →
    ∃ s'', h.start name first s = ((s'', none), (h.scheduler s).tasks.length) ∧
      h.scheduler s'' = (h.scheduler s').modify (h.scheduler s).tasks.length Task.finish

namespace Conduct
variable {h : Host σ Rat β} {run : β → σ → σ × Outcome Rat β}

/-- What can be brought about with a host, with the notes of it: tasks are started and cancelled in
any way, and in between the clock is advanced by updates. -/
inductive Chronicle (k : h.Conduct run) (rounds : β → Nat) : List (Note Rat) → σ → Prop
  | fresh {s : σ} (hs : h.scheduler s = .empty) : Chronicle k rounds [] s
  | acts {es new : List (Note Rat)} {s s' : σ} (hs : Chronicle k rounds es s)
      (hacts : h.Acts new s s') : Chronicle k rounds (es ++ new) s'
  | update {es : List (Note Rat)} {s : σ} {dt : Rat} (hs : Chronicle k rounds es s) (hdt : 0 ≤ dt) :
      Chronicle k rounds ((h.beside _).update k.recording rounds dt (s, es)).1.2
        ((h.beside _).update k.recording rounds dt (s, es)).1.1

/-- What an update does and notes: it does not break off, it does the same as if nothing were noted,
and its notes are those of one tick. -/
structure Updates (k : h.Conduct run) (rounds : β → Nat) (dt : Rat) (es : List (Note Rat)) (s : σ)
    (new : List (Note Rat)) : Prop where
  recorded : (h.beside _).update k.recording rounds dt (s, es) =
    (((h.update run rounds dt s).1, es ++ new), none)
  unbroken : (h.update run rounds dt s).2 = none
  time : (h.scheduler (h.update run rounds dt s).1).time = (h.scheduler s).time + dt
  tick : (h.scheduler (h.update run rounds dt s).1).tick = (h.scheduler s).tick + 1
  now : ∀ n ∈ new, n.time = (h.scheduler s).time + dt ∧ n.tick = (h.scheduler s).tick + 1

/-- The task has its turn in an update: it is run once more when only tasks listed before it have
been, unless it has been cancelled by then. -/
def HasTurn (c : Scheduler Rat β) (dt : Rat) (new : List (Note Rat)) (id : TaskId) : Prop :=
  ∃ before after, c.live = before ++ id :: after ∧
    TakesTurn before ⟨c.time + dt, c.tick + 1, id, .resume⟩ new

/-- How tasks fare that have come to these notes. -/
structure Fares (k : h.Conduct run) (rounds : β → Nat) (es : List (Note Rat)) (s : σ) : Prop where
  /-- The active tasks are those that have suspended and are not done, in that order. -/
  active : (h.scheduler s).active.map some = (standing es).map (h.scheduler s).task?
  /-- These are all that were started and are not done. -/
  complete : ∀ id, id ∈ standing es ↔
    (∃ n ∈ notesOf id es, n.what = .start) ∧ isEnded es id = false
  distinct : (standing es).Nodup
  /-- No task is run when it is done, nor in the tick in which it was started or yielded. -/
  lets : ∀ id, (notesOf id es).Pairwise Note.Lets
  /-- Every task that has yielded since the last update has its turn in the next. -/
  resumed : ∀ dt, 0 ≤ dt → ∃ new, k.Updates rounds dt es s new ∧
    ∀ a ∈ es, a.what.yields = true → a.tick = (h.scheduler s).tick → isEnded es a.task = false →
      HasTurn (h.scheduler s) dt new a.task
  failed : h.FailsAlone run

/-- When tasks are run that have come to these notes. -/
structure KeepsTime (k : h.Conduct run) (rounds : β → Nat) (es : List (Note Rat)) (s : σ) :
    Prop where
  /-- No task is run once more before the time has come to which its delays add up. -/
  late : ∀ pre b post, es = pre ++ b :: post → b.what = .resume →
    dueAfter (notesOf b.task pre) ≤ b.time + Clock.slack Rat
  /-- A delay that a task asks for in its first run is not cut short. -/
  first : ∀ pre b post a c seconds, es = pre ++ b :: post → b.what = .resume →
    notesOf b.task pre = [a, c] → c.what = .suspend (.wait seconds) →
    c.time + seconds ≤ b.time + Clock.slack Rat
  /-- Every task for which the time has come has its turn in the next update. -/
  prompt : ∀ dt, 0 ≤ dt → ∃ new, k.Updates rounds dt es s new ∧
    ∀ id ∈ standing es, dueAfter (notesOf id es) ≤ (h.scheduler s).time + dt + Clock.slack Rat →
      HasTurn (h.scheduler s) dt new id

/-! ## What a chronicle keeps -/

theorem fails_alone (hh : h.Stores) : h.FailsAlone run where
  resume s id t body s' ht hb hrun := by
    refine ⟨h.fail id Task.finish s', ?_, ?_⟩
    · simp only [Host.resume, ht, hb, hrun]
      rfl
    · unfold Host.fail
      rw [hh.scheduler_modify, hh.scheduler_report]
  start s name first s' hrun := by
    have hscheduler : h.scheduler (h.fail (h.scheduler s).tasks.length Task.finish s') =
        (h.scheduler s').modify (h.scheduler s).tasks.length Task.finish := by
      unfold Host.fail
      rw [hh.scheduler_modify, hh.scheduler_report]
    have hdone : ((h.scheduler s').modify (h.scheduler s).tasks.length Task.finish).isDone
        (h.scheduler s).tasks.length = true := (Scheduler.isDone_modify fun _ _ => rfl).1
    have hbegin : first (h.modify (fun c => { c with
        tasks := c.tasks ++ [{ name, body := .running, wakeTime := c.time }] }) s) =
          (s', .fail) := hrun
    refine ⟨h.fail (h.scheduler s).tasks.length Task.finish s', ?_, hscheduler⟩
    simp only [Host.start, hbegin, Host.settle, hscheduler, hdone, if_true]

namespace Chronicle
variable {k : h.Conduct run} {rounds : β → Nat} {es : List (Note Rat)} {s : σ} {id : TaskId}

/-- The notes of a chronicle are a ledger, and between two updates no task is being run. -/
theorem ledger (hh : h.Stores) (hrounds : ∀ body, 0 < rounds body) (hs : k.Chronicle rounds es s) :
    Ledger es (h.scheduler s) ∧ (h.scheduler s).Idle := by
  induction hs with
  | fresh hs =>
    rw [hs]
    exact ⟨.empty, fun id t ht => by cases ht⟩
  | acts _ hacts ih =>
    exact ⟨hacts.ledger hh ih.1, (hacts.sequel hh).idle ih.2⟩
  | update _ hdt ih =>
    obtain ⟨s', new, hupdate, hledger, hidle, -⟩ :=
      serve_update hh k k.keeps_true hrounds ih.1 ih.2 trivial hdt
    rw [hupdate]
    exact ⟨hledger, hidle⟩

/-- What the next update does and notes. -/
theorem next (hh : h.Stores) (hrounds : ∀ body, 0 < rounds body) (hs : k.Chronicle rounds es s)
    {dt : Rat} (hdt : 0 ≤ dt) : ∃ new, k.Updates rounds dt es s new ∧
      ∀ id t, (h.scheduler s).task? id = some t → t.done = false →
        t.wakeTime ≤ (h.scheduler s).time + dt + Clock.slack Rat →
        HasTurn (h.scheduler s) dt new id := by
  obtain ⟨hledger, hidle⟩ := hs.ledger hh hrounds
  obtain ⟨s', new, hupdate, -, -, -, htime, htick, hnow, hturns⟩ :=
    serve_update hh k k.keeps_true hrounds hledger hidle trivial hdt
  have hplain : h.update run rounds dt s = (s', none) :=
    (k.records.update h rounds dt).without hupdate
  refine ⟨new, ⟨by rw [hupdate, hplain], by rw [hplain], by rw [hplain]; exact htime,
    by rw [hplain]; exact htick, hnow⟩, fun id t ht hd hdue => ?_⟩
  have hlive : id ∈ (h.scheduler s).live := by
    rcases hledger.listed.listed id t ht hd with hb | ⟨-, hlive⟩
    · exact absurd hb (hidle id t ht)
    · exact hlive
  have htick : t.wakeTick ≤ (h.scheduler s).tick + 1 :=
    (hledger.lives id t ht).wakeTick_le fun n hn => (hledger.past_notesOf id n hn).2
  obtain ⟨before, after, hsplit⟩ := List.append_of_mem hlive
  exact ⟨before, after, hsplit, hturns before id after t hsplit ht hd htick hdue⟩

/-- Tasks fare well: the active ones are those that are not done, in the order in which they first
suspended, once each; no task is run when it is done, or in the tick in which it was started or has
yielded; one that has yielded has its turn in the next update, unless it has been cancelled by then;
and a task that fails makes no difference to the others. -/
theorem tasks_wait_their_turn (hh : h.Stores) (hrounds : ∀ body, 0 < rounds body)
    (hs : k.Chronicle rounds es s) : k.Fares rounds es s := by
  obtain ⟨hledger, hidle⟩ := hs.ledger hh hrounds
  refine ⟨hledger.active_eq, fun id => hledger.mem_standing_iff hidle, hledger.nodup_standing,
    hledger.pairwise, fun dt hdt => ?_, fails_alone hh⟩
  obtain ⟨new, hupdates, hturns⟩ := hs.next hh hrounds hdt
  refine ⟨new, hupdates, fun a ha hyields htick hended => ?_⟩
  have hmem : a ∈ notesOf a.task es := mem_notesOf.2 ⟨ha, rfl⟩
  obtain ⟨t, ht⟩ := hledger.exists_task hmem
  have hd : t.done = false := (hledger.isEnded_eq ht).symm.trans hended
  have hdue := (hledger.lives _ t ht).yielded_due hd
    (fun n hn => (hledger.past_notesOf _ n hn).2) hmem hyields htick
  have hpast := (hledger.past a ha).1
  exact hturns a.task t ht hd (by linarith)

end Chronicle
end Conduct
end Host

namespace Workshop

/-- A workshop in which one script was started, with the notes of that. -/
def opened (body : Instructions Rat) : Workshop Rat × List (Note Rat) :=
  ((start .null .null body empty).1.1,
    startNotes .null (performAllNotes body) (performAll body) empty)

/-- What an update makes of a workshop, with the notes of it. -/
def later (dt : Rat) (w : Workshop Rat × List (Note Rat)) : Workshop Rat × List (Note Rat) :=
  ((host.beside _).update conduct.recording (fun body => weightAll body + 1) dt w).1

/-- What happened when, without the time of the clock. -/
def told (es : List (Note Rat)) : List (Nat × TaskId × Happening Rat) :=
  es.map fun n => (n.tick, n.task, n.what)

theorem chronicle_opened (body : Instructions Rat) :
    conduct.Chronicle (fun body => weightAll body + 1) (opened body).2 (opened body).1 := by
  have hempty : conduct.Chronicle (fun body => weightAll body + 1) [] empty := .fresh rfl
  exact hempty.acts (start_acts .null .null body empty)

theorem chronicle_later {w : Workshop Rat × List (Note Rat)} {dt : Rat}
    (hw : conduct.Chronicle (fun body => weightAll body + 1) w.2 w.1) (hdt : 0 ≤ dt) :
    conduct.Chronicle (fun body => weightAll body + 1) (later dt w).2 (later dt w).1 :=
  .update hw hdt

/-- One task starts another, which leaves every run to the next tick, and after a second it cancels
that one and fails. -/
def quarrel : Instructions Rat :=
  [.start (.str "other") .null [.repeatTimes 5 [.tick]], .wait 1, .cancel (.str "other"), .fail]

/-- The task that was started later is listed first, since it suspended first. In the update it has
its turn, and then it is cancelled. -/
theorem quarrel_waits_its_turn :
    conduct.Fares (fun body => weightAll body + 1) (later 1 (opened quarrel)).2
        (later 1 (opened quarrel)).1 ∧
      standing (opened quarrel).2 = [1, 0] ∧ standing (later 1 (opened quarrel)).2 = [] ∧
      told (later 1 (opened quarrel)).2 = [(0, 0, .start), (0, 1, .start),
        (0, 1, .suspend .nextTick), (0, 0, .suspend (.wait 1)), (1, 1, .resume),
        (1, 1, .suspend .nextTick), (1, 0, .resume), (1, 1, .cancel), (1, 0, .fail)] :=
  ⟨(chronicle_later (chronicle_opened quarrel) (by decide +kernel)).tasks_wait_their_turn
      host_lawful.stores fun _ => Nat.succ_pos _,
    by decide +kernel, by decide +kernel, by decide +kernel⟩

end Workshop

namespace Host.Conduct.Chronicle
variable {h : Host σ Rat β} {run : β → σ → σ × Outcome Rat β} {k : h.Conduct run}
  {rounds : β → Nat} {es : List (Note Rat)} {s : σ}

/-- A task is run once more when the time has come to which its delays add up, counted from its
start: not before that, but for the slack of the clock, and then in the next update, unless it is
cancelled before its turn there. So a delay that it asks for in its first run is not cut short; one
that it asks for later counts from the time at which it was due. -/
theorem delays_add_up (hh : h.Stores) (hrounds : ∀ body, 0 < rounds body)
    (hs : k.Chronicle rounds es s) : k.KeepsTime rounds es s := by
  obtain ⟨hledger, -⟩ := hs.ledger hh hrounds
  -- Every note of a task is the last one of a life.
  have hlife (pre post : List (Note Rat)) (b : Note Rat) (hes : es = pre ++ b :: post) :
      ∀ ns, ns ≠ [] → ns <+: notesOf b.task pre ++ [b] →
        ∃ u : Task Rat β, Life b.task ns u := by
    intro ns hne hns
    have hnotes : notesOf b.task es = notesOf b.task pre ++ [b] ++ notesOf b.task post := by
      rw [hes, notesOf_append, notesOf_cons_self, List.append_assoc]
      rfl
    obtain ⟨t, ht⟩ := hledger.exists_task (show b ∈ notesOf b.task es by simp [hnotes])
    have hlives := hledger.lives b.task t ht
    rw [hnotes] at hlives
    exact hlives.cut hne (hns.trans (List.prefix_append ..))
  have hlate (pre : List (Note Rat)) (b : Note Rat) (post : List (Note Rat))
      (hes : es = pre ++ b :: post) (hb : b.what = .resume) :
      dueAfter (notesOf b.task pre) ≤ b.time + Clock.slack Rat := by
    obtain ⟨u, hu⟩ := hlife pre post b hes _ (by simp) (List.prefix_refl _)
    exact hu.due_le hb
  refine ⟨hlate, fun pre b post a c seconds hes hb hpre hc => ?_, fun dt hdt => ?_⟩
  · have hdue := hlate pre b post hes hb
    have hprefix : [a] ++ [c] <+: notesOf b.task pre ++ [b] := by
      rw [hpre]
      exact List.prefix_append ..
    obtain ⟨u, hu⟩ := hlife pre post b hes _ (by simp) hprefix
    obtain ⟨n, hn, -, htime, -⟩ := hu.suspends_now (by rw [hc]; rfl)
    obtain ⟨m, rest, hm, hstart⟩ := hu.eq_start_cons
    obtain ⟨rfl, -⟩ := List.cons.inj hm
    rw [List.mem_singleton.1 hn] at htime
    rw [hpre] at hdue
    simp [Note.adds, hstart, hc, Request.delay] at hdue
    linarith
  · obtain ⟨new, hupdates, hturns⟩ := hs.next hh hrounds hdt
    refine ⟨new, hupdates, fun id hid hdue => ?_⟩
    obtain ⟨-, t, ht, hd⟩ := hledger.of_mem_standing hid
    refine hturns id t ht hd ?_
    rw [(hledger.lives id t ht).wakeTime_eq hd]
    exact hdue

end Host.Conduct.Chronicle

/-- A task that waits for a tick, and then for five seconds. -/
def Workshop.nap : Instructions Rat := [.tick, .wait 5]

/-- When the next tick comes after ten seconds, the five are over at once: they count from when the
task was due, which was at its start. -/
theorem Workshop.nap_is_over_at_once :
    conduct.KeepsTime (fun body => weightAll body + 1) (later 10 (opened nap)).2
        (later 10 (opened nap)).1 ∧
      ((later 10 (opened nap)).2.map fun n => (n.time, n.what)) = [(0, .start),
        (0, .suspend .nextTick), (10, .resume), (10, .suspend (.wait 5)), (10, .resume),
        (10, .finish)] :=
  ⟨(chronicle_later (chronicle_opened nap) (by decide +kernel)).delays_add_up host_lawful.stores
      fun _ => Nat.succ_pos _,
    by decide +kernel⟩

end VisualNovel
