import VisualNovel.Proofs.Scheduler.Growth
import VisualNovel.Proofs.Scheduler.Timetable
/-!
# The lives of tasks

What happens to a task is noted with the time and the tick of the clock. A task lives on its notes
if they lead to the state in which it is (`Life`): it is started, it is run once more only when it
waits and is due, each run is settled while the clock stands still, and it is cancelled at most
once.

From that follows what may come after what in a life:
* `Life.done_iff`: a task is done when a note has ended it, and no other way.
* `Life.pairwise`: what has ended is not run again, and what yields waits for a later tick.
* `Life.due_le`: when a task is run once more, the clock has come to the sum of what it was started
  at and of all delays that it asked for, less the slack of the clock.
-/
namespace VisualNovel
variable {τ β : Type}

/-- What happens to a task. -/
inductive Happening (τ : Type) where
  /-- It is started, and runs for the first time. -/
  | start
  /-- It is run once more. -/
  | resume
  /-- A run of it ends with a request. -/
  | suspend (request : Request τ)
  | finish
  | fail
  | cancel
  deriving DecidableEq, Repr

/-- A task is done behind it. -/
def Happening.ends : Happening τ → Bool
  | .finish | .fail | .cancel => true
  | .start | .resume | .suspend _ => false

/-- A run of the task begins. -/
def Happening.runs : Happening τ → Bool
  | .start | .resume => true
  | .suspend _ | .finish | .fail | .cancel => false

/-- A run of the task ends, and the task waits. -/
def Happening.suspends : Happening τ → Bool
  | .suspend _ => true
  | .start | .resume | .finish | .fail | .cancel => false

/-- By how much a request puts off the time at which a task is due. -/
def Request.delay : Request Rat → Rat
  | .nextTick => 0
  | .wait seconds => seconds

/-- Whether a request leaves the task to the next tick, however late it is. -/
def Request.yields : Request Rat → Bool
  | .nextTick => true
  | .wait seconds => !decide (0 < seconds)

/-- A run of the task ends, and the task waits for the next tick. -/
def Happening.yields : Happening Rat → Bool
  | .suspend r => r.yields
  | .start | .resume | .finish | .fail | .cancel => false

/-- How one run of a task ends. -/
def Outcome.happening : Outcome τ β → Happening τ
  | .suspend r _ => .suspend r
  | .finish => .finish
  | .fail => .fail

/-- That something happened to a task, and when. -/
structure Note (τ : Type) where
  time : τ
  tick : Nat
  task : TaskId
  what : Happening τ
  deriving DecidableEq, Repr

/-- What a note adds to the time at which its task is due: the clock when the task was started, and
the delay when it asks for one. -/
def Note.adds (n : Note Rat) : Rat :=
  match n.what with
  | .start => n.time
  | .suspend r => r.delay
  | .resume | .finish | .fail | .cancel => 0

/-- When a task with these notes is due: its delays, one after the other, from its start on. -/
def dueAfter (ns : List (Note Rat)) : Rat := (ns.map Note.adds).sum

/-- The notes of one task. -/
def notesOf (id : TaskId) (es : List (Note τ)) : List (Note τ) := es.filter (·.task = id)

/-- A task that is cancelled; its body is closed unless it is being run. -/
def Task.cancel (t : Task τ β) : Task τ β :=
  { t with
    cancelled := true
    done := true
    body := match t.body with
      | .suspended _ => .ended
      | .running => .running
      | .ended => .ended }

/-- A task whose run has ended. If it was cancelled in that run, it waits for nothing. -/
def Task.settle (tick : Nat) (o : Outcome Rat β) (t : Task Rat β) : Task Rat β :=
  match o with
  | .finish | .fail => t.finish
  | .suspend r rest =>
    if t.done then { t with body := .suspended rest }
    else t.pause rest (t.wakeTime + r.delay) (r.wakeTick tick)

/-- A task has come to where it is through what its notes say, in order. -/
inductive Life (id : TaskId) : List (Note Rat) → Task Rat β → Prop
  | start (time : Rat) (tick : Nat) (name : Json) :
      Life id [⟨time, tick, id, .start⟩] { name, body := .running, wakeTime := time }
  | resume {ns t rest time tick} (h : Life id ns t) (hpast : ∀ n ∈ ns, n.time ≤ time ∧ n.tick ≤ tick)
      (hbegun : ∀ n ∈ ns, n.what = .start → n.tick < tick) (hleft : t.left? = some rest)
      (htick : t.wakeTick ≤ tick) (htime : t.wakeTime ≤ time + Clock.slack Rat) :
      Life id (ns ++ [⟨time, tick, id, .resume⟩]) { t with body := .running }
  | settle {ns t time tick} (h : Life id ns t) (hpast : ∀ n ∈ ns, n.time ≤ time ∧ n.tick ≤ tick)
      (hbody : t.body = .running)
      (hnow : ∃ n ∈ ns, n.what.runs = true ∧ n.time = time ∧ n.tick = tick) (o : Outcome Rat β) :
      Life id (ns ++ [⟨time, tick, id, o.happening⟩]) (t.settle tick o)
  | cancel {ns t time tick} (h : Life id ns t) (hpast : ∀ n ∈ ns, n.time ≤ time ∧ n.tick ≤ tick)
      (hdone : t.done = false) : Life id (ns ++ [⟨time, tick, id, .cancel⟩]) t.cancel

/-! ## Small facts -/

theorem Request.wakeTime_eq (now : Rat) (r : Request Rat) : r.wakeTime now = .ok (now + r.delay) := by
  cases r with
  | nextTick => simp [Request.wakeTime, delay]
  | wait seconds => rfl

theorem Request.wakeTick_eq (tick : Nat) (r : Request Rat) :
    r.wakeTick tick = if r.yields then tick + 1 else tick := by
  cases r with
  | nextTick => rfl
  | wait seconds =>
    by_cases hs : 0 < seconds <;> simp [Request.wakeTick, yields, Clock.lt, Clock.zero, hs]

theorem Request.delay_nonpos {r : Request Rat} (h : r.yields = true) : r.delay ≤ 0 := by
  cases r with
  | nextTick => exact le_refl (0 : Rat)
  | wait seconds => simpa [yields, delay] using h

theorem Request.le_wakeTick (tick : Nat) (r : Request Rat) : tick ≤ r.wakeTick tick := by
  rw [wakeTick_eq]
  split
  · exact Nat.le_succ tick
  · exact Nat.le_refl tick

theorem Outcome.happening_runs (o : Outcome τ β) : o.happening.runs = false := by cases o <;> rfl

theorem Outcome.happening_ne_resume (o : Outcome τ β) : o.happening ≠ .resume := by
  cases o <;> exact nofun

theorem Outcome.happening_ne_start (o : Outcome τ β) : o.happening ≠ .start := by
  cases o <;> exact nofun

@[simp] theorem Task.cancel_done (t : Task τ β) : t.cancel.done = true := rfl

theorem Task.cancel_running_iff (t : Task τ β) : t.cancel.body = .running ↔ t.body = .running := by
  unfold cancel
  cases t.body <;> simp

theorem Task.settle_suspend (tick : Nat) (r : Request Rat) (rest : β) (t : Task Rat β) :
    t.settle tick (.suspend r rest) =
      if t.done then { t with body := .suspended rest }
      else t.pause rest (t.wakeTime + r.delay) (r.wakeTick tick) := rfl

theorem Task.settle_ne_running (tick : Nat) (o : Outcome Rat β) (t : Task Rat β) :
    (t.settle tick o).body ≠ .running := by
  cases o with
  | finish => exact t.finish_ne_running
  | fail => exact t.finish_ne_running
  | suspend r rest =>
    rw [settle_suspend]
    split <;> exact nofun

/-- A task whose run ends is done if it was before, or if the run ends it. -/
theorem Task.settle_done (tick : Nat) (o : Outcome Rat β) (t : Task Rat β) :
    (t.settle tick o).done = (t.done || o.happening.ends) := by
  cases o with
  | finish => exact (Bool.or_true t.done).symm
  | fail => exact (Bool.or_true t.done).symm
  | suspend r rest =>
    rw [settle_suspend, Outcome.happening, Happening.ends, Bool.or_false]
    split <;> rfl

/-- Only a run that ends with a request leaves a task behind that is not done. -/
theorem Task.settle_alive {tick : Nat} {o : Outcome Rat β} {t : Task Rat β}
    (hd : (t.settle tick o).done = false) : ∃ r rest, o = .suspend r rest ∧ t.done = false ∧
      t.settle tick o = t.pause rest (t.wakeTime + r.delay) (r.wakeTick tick) := by
  cases o with
  | finish => cases hd
  | fail => cases hd
  | suspend r rest =>
    rw [settle_done, Bool.or_eq_false_iff] at hd
    exact ⟨r, rest, rfl, hd.1, by rw [settle_suspend, hd.1]; rfl⟩

theorem Task.settle_awaits (tick : Nat) (o : Outcome Rat β) (t : Task Rat β) :
    (t.settle tick o).Awaits := by
  intro hd
  obtain ⟨r, rest, -, hd', hpause⟩ := settle_alive hd
  rw [hpause]
  exact ⟨rest, Task.left?_eq_some.2 ⟨rfl, hd'⟩⟩

@[simp] theorem notesOf_append (id : TaskId) (es es' : List (Note τ)) :
    notesOf id (es ++ es') = notesOf id es ++ notesOf id es' := List.filter_append ..

@[simp] theorem notesOf_nil (id : TaskId) : notesOf id ([] : List (Note τ)) = [] := rfl

theorem mem_notesOf {id : TaskId} {es : List (Note τ)} {n : Note τ} :
    n ∈ notesOf id es ↔ n ∈ es ∧ n.task = id := by
  simp [notesOf]

theorem notesOf_cons_self (n : Note τ) (es : List (Note τ)) :
    notesOf n.task (n :: es) = n :: notesOf n.task es := by
  simp [notesOf]

theorem notesOf_cons_of_ne {id : TaskId} {n : Note τ} (h : n.task ≠ id) (es : List (Note τ)) :
    notesOf id (n :: es) = notesOf id es := by
  simp [notesOf, h]

@[simp] theorem dueAfter_append (ns ns' : List (Note Rat)) :
    dueAfter (ns ++ ns') = dueAfter ns + dueAfter ns' := by
  simp [dueAfter]

@[simp] theorem dueAfter_cons (n : Note Rat) (ns : List (Note Rat)) :
    dueAfter (n :: ns) = n.adds + dueAfter ns := by
  simp [dueAfter]

@[simp] theorem dueAfter_nil : dueAfter [] = 0 := rfl

/-! ## What may come after what -/

/-- What may come after a note in a life. -/
structure Note.Lets (a b : Note Rat) : Prop where
  time : a.time ≤ b.time
  tick : a.tick ≤ b.tick
  ended : a.what.ends = true → b.what.runs = false
  yielded : a.what.yields = true → b.what = .resume → a.tick < b.tick
  begun : a.what = .start → b.what = .resume → a.tick < b.tick
  once : b.what ≠ .start

namespace Life
variable {id : TaskId} {ns : List (Note Rat)} {t : Task Rat β}

/-- All notes of a life are notes of its task. -/
theorem mem (h : Life id ns t) : ∀ n ∈ ns, n.task = id := by
  induction h with
  | start => simp
  | resume _ _ _ _ _ _ ih => simpa [or_imp, forall_and] using ih
  | settle _ _ _ _ _ ih => simpa [or_imp, forall_and] using ih
  | cancel _ _ _ ih => simpa [or_imp, forall_and] using ih

/-- A task is done when a note has ended it, and no other way. -/
theorem done_iff (h : Life id ns t) : t.done = true ↔ ∃ n ∈ ns, n.what.ends = true := by
  induction h with
  | start => simp [Happening.ends]
  | resume _ _ _ _ _ _ ih => simpa [or_and_right, exists_or, Happening.ends] using ih
  | settle _ _ _ _ o ih => simp [Task.settle_done, or_and_right, exists_or, ih]
  | cancel _ _ _ _ => simp [or_and_right, exists_or, Happening.ends]

theorem done_eq_false_iff (h : Life id ns t) :
    t.done = false ↔ ∀ n ∈ ns, n.what.ends = false := by
  rw [← Bool.not_eq_true, h.done_iff]
  simp

/-- As long as a task is not done, it is due when its notes say. -/
theorem wakeTime_eq (h : Life id ns t) (hd : t.done = false) : t.wakeTime = dueAfter ns := by
  induction h with
  | start => simp [Note.adds]
  | resume _ _ _ hleft _ _ ih => simpa [Note.adds] using ih (Task.left?_eq_some.1 hleft).2
  | settle _ _ _ _ o ih =>
    obtain ⟨r, rest, rfl, hd', hpause⟩ := Task.settle_alive hd
    rw [hpause]
    simp [Task.pause, Note.adds, Outcome.happening, ih hd']
  | cancel => cases hd

/-- A task that is being run was due when its run began. -/
theorem woken (h : Life id ns t) (hbody : t.body = .running) :
    ∃ n ∈ ns, t.wakeTick ≤ n.tick ∧ t.wakeTime ≤ n.time + Clock.slack Rat := by
  induction h with
  | start time tick name =>
    have hslack := Timetable.slack_nonneg
    exact ⟨_, List.mem_singleton.2 rfl, Nat.zero_le tick, by show time ≤ time + _; linarith⟩
  | resume _ _ _ _ htick htime _ =>
    exact ⟨_, List.mem_append_right _ (List.mem_singleton.2 rfl), htick, htime⟩
  | @settle ns t time tick _ _ _ _ o _ => exact absurd hbody (t.settle_ne_running tick o)
  | @cancel ns t time tick _ _ _ ih =>
    obtain ⟨n, hn, hdue⟩ := ih ((t.cancel_running_iff).1 hbody)
    exact ⟨n, List.mem_append_left _ hn, hdue⟩

/-- A task waits for no tick but the present one or the next. -/
theorem wakeTick_le (h : Life id ns t) {k : Nat} (hk : ∀ n ∈ ns, n.tick ≤ k) :
    t.wakeTick ≤ k + 1 := by
  induction h with
  | start => exact Nat.zero_le _
  | resume _ _ _ _ _ _ ih => exact ih fun n hn => hk n (List.mem_append_left _ hn)
  | @settle ns t time tick _ _ _ _ o ih =>
    have hle := ih fun n hn => hk n (List.mem_append_left _ hn)
    have htick : tick ≤ k := hk _ (List.mem_append_right _ (List.mem_singleton.2 rfl))
    cases o with
    | finish => exact hle
    | fail => exact hle
    | suspend r rest =>
      rw [Task.settle_suspend]
      split
      · exact hle
      · have hwake := Timetable.wakeTick_le r tick
        show r.wakeTick tick ≤ k + 1
        omega
  | cancel _ _ _ ih => exact ih fun n hn => hk n (List.mem_append_left _ hn)

/-- A task that has yielded waits for a tick after that. -/
theorem yielded_lt (h : Life id ns t) (hd : t.done = false) :
    ∀ n ∈ ns, n.what.yields = true → n.tick < t.wakeTick := by
  induction h with
  | start => simp [Happening.yields]
  | resume _ _ _ hleft _ _ ih =>
    have hnone := ih (Task.left?_eq_some.1 hleft).2
    simpa [or_imp, forall_and, Happening.yields] using hnone
  | @settle ns t time tick h hpast hbody hnow o ih =>
    obtain ⟨r, rest, rfl, hd', hpause⟩ := Task.settle_alive hd
    rw [hpause]
    intro n hn hyields
    show n.tick < r.wakeTick tick
    rcases List.mem_append.1 hn with hn | hn
    · -- It was run again since, in a tick that it had waited for.
      obtain ⟨m, hm, hle, -⟩ := h.woken hbody
      have hlt := ih hd' n hn hyields
      have htick := (hpast m hm).2
      have hwake := r.le_wakeTick tick
      omega
    · rw [List.mem_singleton.1 hn] at hyields ⊢
      have hyields' : r.yields = true := hyields
      rw [Request.wakeTick_eq, if_pos hyields']
      exact Nat.lt_succ_self tick
  | cancel => cases hd

/-- A task that has yielded in the present tick is due at the present time. -/
theorem yielded_due (h : Life id ns t) (hd : t.done = false) {k : Nat} (hk : ∀ n ∈ ns, n.tick ≤ k)
    {a : Note Rat} (ha : a ∈ ns) (hyields : a.what.yields = true) (htick : a.tick = k) :
    t.wakeTime ≤ a.time + Clock.slack Rat := by
  cases h with
  | start =>
    rw [List.mem_singleton.1 ha] at hyields
    cases hyields
  | @resume ns t rest time tick h _ _ hleft hwake _ =>
    rcases List.mem_append.1 ha with ha | ha
    · have hlt := h.yielded_lt (Task.left?_eq_some.1 hleft).2 a ha hyields
      have hle : tick ≤ k := hk _ (List.mem_append_right _ (List.mem_singleton.2 rfl))
      omega
    · rw [List.mem_singleton.1 ha] at hyields
      cases hyields
  | @settle ns t time tick h hpast hbody _ o =>
    obtain ⟨r, rest, rfl, hd', hpause⟩ := Task.settle_alive hd
    obtain ⟨m, hm, hwake, hdue⟩ := h.woken hbody
    rcases List.mem_append.1 ha with ha | ha
    · have hlt := h.yielded_lt hd' a ha hyields
      have hle := hk m (List.mem_append_left _ hm)
      omega
    · rw [List.mem_singleton.1 ha] at hyields ⊢
      have hdelay : r.delay ≤ 0 := Request.delay_nonpos hyields
      have htime := (hpast m hm).1
      rw [hpause]
      show t.wakeTime + r.delay ≤ time + Clock.slack Rat
      linarith
  | cancel => cases hd

/-- In a life the clock does not run backwards, what has ended is not run again, and what has
yielded or was just started is not run again in the same tick. -/
theorem pairwise (h : Life id ns t) : ns.Pairwise Note.Lets := by
  have hsnoc {ns : List (Note Rat)} {b : Note Rat} (hns : ns.Pairwise Note.Lets)
      (hb : ∀ a ∈ ns, a.Lets b) : (ns ++ [b]).Pairwise Note.Lets :=
    List.pairwise_append.2 ⟨hns, List.pairwise_singleton .., fun a ha c hc => by
      rw [List.mem_singleton.1 hc]
      exact hb a ha⟩
  induction h with
  | start => exact List.pairwise_singleton ..
  | @resume ns t rest time tick h hpast hbegun hleft htick htime ih =>
    have hd := (Task.left?_eq_some.1 hleft).2
    refine hsnoc ih fun a ha => ⟨(hpast a ha).1, (hpast a ha).2, fun hends => ?_, fun hy _ => ?_,
      fun hs _ => hbegun a ha hs, nofun⟩
    · rw [h.done_eq_false_iff.1 hd a ha] at hends
      cases hends
    · exact Nat.lt_of_lt_of_le (h.yielded_lt hd a ha hy) htick
  | settle h hpast hbody hnow o ih =>
    exact hsnoc ih fun a ha => ⟨(hpast a ha).1, (hpast a ha).2, fun _ => o.happening_runs,
      fun _ hr => absurd hr o.happening_ne_resume, fun _ hr => absurd hr o.happening_ne_resume,
      o.happening_ne_start⟩
  | cancel h hpast hd ih =>
    exact hsnoc ih fun a ha => ⟨(hpast a ha).1, (hpast a ha).2, fun _ => rfl, nofun, nofun, nofun⟩

/-- A life begins with the start of the task. -/
theorem eq_start_cons (h : Life id ns t) : ∃ s rest, ns = s :: rest ∧ s.what = .start := by
  induction h with
  | start => exact ⟨_, _, rfl, rfl⟩
  | resume _ _ _ _ _ _ ih =>
    obtain ⟨s, rest, rfl, hs⟩ := ih
    exact ⟨s, _, rfl, hs⟩
  | settle _ _ _ _ _ ih =>
    obtain ⟨s, rest, rfl, hs⟩ := ih
    exact ⟨s, _, rfl, hs⟩
  | cancel _ _ _ ih =>
    obtain ⟨s, rest, rfl, hs⟩ := ih
    exact ⟨s, _, rfl, hs⟩

/-- What a life has come through is a life, too. -/
theorem cut (h : Life id ns t) {pre : List (Note Rat)} (hne : pre ≠ []) (hpre : pre <+: ns) :
    ∃ u : Task Rat β, Life id pre u := by
  have hsnoc {ns : List (Note Rat)} {b : Note Rat} {u : Task Rat β} (hb : Life id (ns ++ [b]) u)
      (ih : pre <+: ns → ∃ u : Task Rat β, Life id pre u) (hpre : pre <+: ns ++ [b]) :
      ∃ u : Task Rat β, Life id pre u := by
    rcases List.prefix_concat_iff.1 hpre with rfl | hpre
    · exact ⟨u, hb⟩
    · exact ih hpre
  induction h with
  | start time tick name =>
    obtain ⟨l, rfl, hl⟩ := (List.prefix_cons_iff.1 hpre).resolve_left hne
    obtain rfl := List.prefix_nil.1 hl
    exact ⟨_, .start time tick name⟩
  | resume h hpast hbegun hleft htick htime ih =>
    exact hsnoc (.resume h hpast hbegun hleft htick htime) ih hpre
  | settle h hpast hbody hnow o ih => exact hsnoc (.settle h hpast hbody hnow o) ih hpre
  | cancel h hpast hd ih => exact hsnoc (.cancel h hpast hd) ih hpre

/-- When a task is run once more, the clock has come to the time at which it was due. -/
theorem due_le {pre : List (Note Rat)} {b : Note Rat} (h : Life id (pre ++ [b]) t)
    (hb : b.what = .resume) : dueAfter pre ≤ b.time + Clock.slack Rat := by
  generalize hns : pre ++ [b] = ns at h
  cases h with
  | start =>
    obtain ⟨-, hb'⟩ := List.append_inj' (show pre ++ [b] = [] ++ [_] from hns) rfl
    obtain rfl := List.singleton_inj.1 hb'
    cases hb
  | resume h _ _ hleft _ htime =>
    obtain ⟨rfl, hb'⟩ := List.append_inj' hns rfl
    obtain rfl := List.singleton_inj.1 hb'
    rw [← h.wakeTime_eq (Task.left?_eq_some.1 hleft).2]
    exact htime
  | settle _ _ _ _ o =>
    obtain ⟨-, hb'⟩ := List.append_inj' hns rfl
    obtain rfl := List.singleton_inj.1 hb'
    exact absurd hb o.happening_ne_resume
  | cancel =>
    obtain ⟨-, hb'⟩ := List.append_inj' hns rfl
    obtain rfl := List.singleton_inj.1 hb'
    cases hb

/-- A run ends while the clock stands at the time at which it began. -/
theorem suspends_now {pre : List (Note Rat)} {b : Note Rat} (h : Life id (pre ++ [b]) t)
    (hb : b.what.suspends = true) :
    ∃ n ∈ pre, n.what.runs = true ∧ n.time = b.time ∧ n.tick = b.tick := by
  generalize hns : pre ++ [b] = ns at h
  cases h with
  | start =>
    obtain ⟨-, hb'⟩ := List.append_inj' (show pre ++ [b] = [] ++ [_] from hns) rfl
    obtain rfl := List.singleton_inj.1 hb'
    cases hb
  | settle _ _ _ hnow o =>
    obtain ⟨rfl, hb'⟩ := List.append_inj' hns rfl
    obtain rfl := List.singleton_inj.1 hb'
    exact hnow
  | resume | cancel =>
    obtain ⟨-, hb'⟩ := List.append_inj' hns rfl
    obtain rfl := List.singleton_inj.1 hb'
    cases hb

end Life
end VisualNovel
