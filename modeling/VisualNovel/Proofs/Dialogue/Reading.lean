import VisualNovel.Proofs.Dialogue.OneReveal
import VisualNovel.Proofs.Dialogue.Tasks
import VisualNovel.Proofs.Scheduler.Timetable
/-!
# A line that is read

A line of a recital is read by one task, character by character. Here is what one run of that task
does, what an update does, and what it is to begin a line where no task is left; when the runs
happen is not said here.

Results:
* `Reads.next`, `Reads.last`: a run shows one character more, or completes the line.
* `Reads.update`, `HasRead.update`: an update runs that task, or nothing.
* `begin_begun`: a line that is begun shows its first character, or has none and is complete.
-/
namespace VisualNovel

/-- A task that is done cannot be run. -/
theorem Scheduler.not_ripe_of_isDone {β : Type} {s : Scheduler Rat β} {id : TaskId}
    {t : Task Rat β} (ht : s.task? id = some t) (h : s.isDone id = true) : ¬s.Ripe t := by
  rintro ⟨hd, -, -⟩
  rw [isDone_of_task? ht, hd] at h
  cases h

/-- When a task is added to tasks that are done, the others are still done, whatever becomes of it. -/
theorem Scheduler.isDone_beside_enrol {β : Type} {s : Scheduler Rat β}
    (hdone : ∀ j, s.isDone j = true) (name : Json) (f : Task Rat β → Task Rat β) {j : TaskId}
    (hj : j ≠ s.tasks.length) : ((s.enrol name).modify s.tasks.length f).isDone j = true := by
  unfold isDone
  rw [task?_modify_of_ne _ _ hj]
  rcases Nat.lt_or_gt_of_ne hj with hlt | hgt
  · rw [task?_enrol_of_lt hlt]
    exact hdone j
  · rw [task?_enrol_of_gt hgt]
    rfl

namespace Host
variable {σ β : Type} {h : Host σ Rat β} {run : β → σ → σ × Outcome Rat β} {rounds : β → Nat}
  {id : TaskId} {s s' : σ}

/-- A round in which no task can be run. -/
theorem round_quiet (hquiet : ∀ j t, (h.scheduler s).task? j = some t → ¬(h.scheduler s).Ripe t)
    (ids : List TaskId) :
    Attempt.inTurn (fun id s => h.runDue run id (h.roundsLeft rounds id s) s) ids s = (s, none) := by
  induction ids with
  | nil => rfl
  | cons j ids ih =>
    rw [Attempt.inTurn, Conduct.runDue_unripe h run (hquiet j), Attempt.andThen_none, ih]

/-- A round in which only one task can be run. -/
theorem round_alone (hbefore : ∀ j, j ≠ id → ∀ t, (h.scheduler s).task? j = some t →
      ¬(h.scheduler s).Ripe t)
    (hserve : h.runDue run id (h.roundsLeft rounds id s) s = (s', none))
    (hquiet : ∀ j t, (h.scheduler s').task? j = some t → ¬(h.scheduler s').Ripe t)
    {ids : List TaskId} (hid : id ∈ ids) :
    Attempt.inTurn (fun id s => h.runDue run id (h.roundsLeft rounds id s) s) ids s =
      (s', none) := by
  induction ids with
  | nil => cases hid
  | cons j ids ih =>
    rw [Attempt.inTurn]
    by_cases hj : j = id
    · rw [hj, hserve, Attempt.andThen_none, round_quiet hquiet]
    · rw [Conduct.runDue_unripe h run (hbefore j hj), Attempt.andThen_none,
        ih ((List.mem_cons.1 hid).resolve_left fun he => hj he.symm)]

/-- An update is a round behind the advance of the clock. -/
theorem update_of_round (h : Host σ Rat β) (run : β → σ → σ × Outcome Rat β) (rounds : β → Nat)
    (dt : Rat) (hs : h.modify (fun c =>
      { c with time := (h.scheduler s).time + dt, tick := c.tick + 1 }) s = s')
    {s'' : σ} (hround : Attempt.inTurn (fun id s => h.runDue run id (h.roundsLeft rounds id s) s)
      (h.scheduler s').live s' = (s'', none)) :
    h.update run rounds dt s = (h.sweep s'', none) := by
  have hadd : Clock.add (h.scheduler s).time dt = .ok ((h.scheduler s).time + dt) := rfl
  simp only [update, hadd, hs, hround, Attempt.andThen_none]

end Host

namespace Recital
open Dialogue (Reciter awaken host_start_suspend host_start_finish host_resume_suspend host_resume_finish)

/-- The calls with which the first characters of a line are shown one by one, each with its sound. -/
def scroll (sound : Json) : Nat → List Call
  | 0 => []
  | n + 1 => scroll sound n ++ [.visible (n + 1), .play sound]

/-- What is left when the first characters of a line are shown, one after the other. -/
def scrolled (sound : Json) (n : Nat) : List RecitalMark := (scroll sound n).map .call

theorem scrolled_succ (sound : Json) (n : Nat) : scrolled sound (n + 1) =
    scrolled sound n ++ [.call (.visible (n + 1)), .call (.play sound)] := List.map_append

/-- What is left when a line is complete that has no other in its wake. -/
def closing (after : Option (List String)) : List RecitalMark := after.elim [] fun _ => [.complete]

variable {interval : Rat} {sound : Json} {text : String} {after : Option (List String)}
  {id : TaskId} {due : Rat} {tick n : Nat} {before : List RecitalMark} {d : Recital Rat}

/-- A line is being read of which `n` characters are shown. The task that reveals it is due at a
time and in a tick, and no other one can be run. -/
structure Reads (sound : Json) (text : String) (after : Option (List String)) (id : TaskId)
    (before : List RecitalMark) (due : Rat) (tick n : Nat) (d : Recital Rat) : Prop where
  task : ∃ t, d.scheduler.task? id = some t ∧ t.left? = some (.reveal text after) ∧
    t.wakeTime = due ∧ t.wakeTick = tick
  live : id ∈ d.scheduler.live
  alone : ∀ j, j ≠ id → d.scheduler.isDone j = true
  revealed : d.session.revealed = n
  revealing : d.session.revealing = true
  skip : d.session.skip = false
  marks : d.outside.marks = before ++ scrolled sound n

/-- A line of `n` characters has been read. -/
structure HasRead (sound : Json) (after : Option (List String)) (before : List RecitalMark)
    (n : Nat) (d : Recital Rat) : Prop where
  ended : ∀ j, d.scheduler.isDone j = true
  revealed : d.session.revealed = n
  revealing : d.session.revealing = false
  marks : d.outside.marks = before ++ scrolled sound n ++ closing after

/-! ## One run -/

/-- One character more is shown. -/
theorem run_next (hn : d.session.revealed < text.length) (hskip : d.session.skip = false) :
    run (manner interval sound) (.reveal text after) d =
      ({ d with
        session := { d.session with revealed := d.session.revealed + 1 }
        outside := { d.outside with marks := d.outside.marks ++
          [.call (.visible ↑(d.session.revealed + 1)), .call (.play sound)] } },
        .suspend (.wait interval) (.reveal text after)) := by
  unfold run Dialogue.runReveal
  simp only [if_pos (And.intro hn hskip)]
  exact congrArg (fun marks => (({ d with
    session := { d.session with revealed := d.session.revealed + 1 }
    outside := { d.outside with marks } } : Recital Rat), _)) (List.append_assoc ..)

/-- All characters are shown, and the line is complete. -/
theorem run_last (interval : Rat) (sound : Json) (hn : d.session.revealed = text.length)
    (hafter : ∀ wake, after = some wake → wake = []) :
    ∃ log, run (manner interval sound) (.reveal text after) d =
      ({ d with
        session := { d.session with skip := false, revealing := false }
        reveal := none
        outside := ⟨d.outside.marks ++ closing after, log⟩ }, .finish) := by
  have hno : ¬(d.session.revealed < text.length ∧ d.session.skip = false) := by simp [hn]
  have hall : d.revealRest (manner interval sound) text.length = (d, none) := by
    rw [Dialogue.revealRest, if_neg (by simp [hn])]
  unfold run Dialogue.runReveal
  simp only [if_neg hno, hall, Attempt.andThen_none]
  cases after with
  | none => exact ⟨_, by rw [closing, Option.elim_none, List.append_nil]; rfl⟩
  | some wake => exact ⟨_, by rw [hafter wake rfl]; rfl⟩

/-- When a task is resumed, the others that are done are still done. -/
theorem isDone_beside_awaken {α : Type} {s : Scheduler Rat (Activity α)} {j : TaskId}
    (h : s.isDone j = true) (f : Task Rat (Activity α) → Task Rat (Activity α)) (hj : j ≠ id) :
    ((awaken id s).modify id f).isDone j = true := by
  unfold Scheduler.isDone
  rw [Scheduler.task?_modify_of_ne _ _ hj, awaken, Scheduler.task?_modify_of_ne _ _ hj]
  exact h

/-- The clock is the same. -/
def SameClock (d d' : Recital Rat) : Prop :=
  d'.scheduler.time = d.scheduler.time ∧ d'.scheduler.tick = d.scheduler.tick

/-- The task is resumed: one character more is shown, and the task waits from when it was due. -/
theorem Reads.next (h : Reads sound text after id before due tick n d) (interval : Rat)
    (hn : n < text.length) :
    ∃ d', (Dialogue.host stage).resume (run (manner interval sound)) id d = (d', none) ∧
      Reads sound text after id before (due + interval)
        ((Request.wait interval).wakeTick d.scheduler.tick) (n + 1) d' ∧ SameClock d d' := by
  obtain ⟨t, ht, hleft, hdue, -⟩ := h.task
  have hd := (Task.left?_eq_some.1 hleft).2
  have hwake : (Request.wait interval).wakeTime t.wakeTime = .ok (due + interval) := by
    rw [hdue]
    rfl
  have hresume := host_resume_suspend stage (run (manner interval sound)) ht hleft
    (run_next (by rw [h.revealed]; exact hn) h.skip) (.refl _) hwake
  refine ⟨_, hresume, ⟨?_, h.live, fun j hj => ?_, ?_, h.revealing, h.skip, ?_⟩, rfl, rfl⟩
  · refine ⟨t.pause (.reveal text after) (due + interval)
      ((Request.wait interval).wakeTick d.scheduler.tick), ?_, Task.left?_eq_some.2 ⟨rfl, hd⟩, rfl,
      rfl⟩
    rw [Scheduler.task?_modify_self, awaken, Scheduler.task?_modify_self, ht]
    rfl
  · exact isDone_beside_awaken (h.alone j hj) _ hj
  · show d.session.revealed + 1 = n + 1
    rw [h.revealed]
  · show d.outside.marks ++ _ = before ++ scrolled sound (n + 1)
    rw [h.marks, h.revealed, scrolled_succ, List.append_assoc]

/-- The task is resumed once more: the line is complete. -/
theorem Reads.last (h : Reads sound text after id before due tick n d) (interval : Rat)
    (hn : n = text.length) (hafter : ∀ wake, after = some wake → wake = []) :
    ∃ d', (Dialogue.host stage).resume (run (manner interval sound)) id d = (d', none) ∧
      HasRead sound after before n d' ∧ SameClock d d' := by
  obtain ⟨t, ht, hleft, -⟩ := h.task
  let e : Recital Rat := { d with scheduler := awaken id d.scheduler }
  have hlast : e.session.revealed = text.length := h.revealed.trans hn
  obtain ⟨log, hrun⟩ := run_last interval sound hlast hafter
  have hresume := host_resume_finish stage (run (manner interval sound)) ht hleft hrun
  refine ⟨_, hresume, ⟨fun j => ?_, h.revealed, rfl, ?_⟩, rfl, rfl⟩
  · by_cases hj : j = id
    · subst hj
      show ((awaken j d.scheduler).modify j Task.finish).isDone j = true
      unfold Scheduler.isDone
      rw [Scheduler.task?_modify_self, awaken, Scheduler.task?_modify_self, ht]
      rfl
    · exact isDone_beside_awaken (h.alone j hj) _ hj
  · show d.outside.marks ++ closing after = _
    rw [h.marks]

/-! ## One update -/

/-- The latest time for which a task may be due now. -/
def latest (d : Recital Rat) : Rat := d.scheduler.time + Clock.slack Rat

/-- While the task is not due, nothing can be run. -/
theorem Reads.quiet (h : Reads sound text after id before due tick n d)
    (hwait : latest d < due ∨ d.scheduler.tick < tick) (j : TaskId)
    (t : Task Rat (Activity (Option (List String)))) (ht : d.scheduler.task? j = some t) :
    ¬d.scheduler.Ripe t := by
  by_cases hj : j = id
  · subst hj
    rintro ⟨-, htick, htime⟩
    obtain ⟨u, hu, -, hdue, hwake⟩ := h.task
    cases ht.symm.trans hu
    rw [hdue] at htime
    rw [hwake] at htick
    rcases hwait with hlate | hsoon
    · exact absurd htime (not_le_of_gt hlate)
    · exact absurd htick (Nat.not_le_of_gt hsoon)
  · exact Scheduler.not_ripe_of_isDone ht (h.alone j hj)

/-- When the line is complete, nothing can be run. -/
theorem HasRead.quiet (h : HasRead sound after before n d) (j : TaskId)
    (t : Task Rat (Activity (Option (List String)))) (ht : d.scheduler.task? j = some t) :
    ¬d.scheduler.Ripe t := Scheduler.not_ripe_of_isDone ht (h.ended j)

/-- A task that is due is resumed. -/
theorem Reads.runDue (h : Reads sound text after id before due tick n d) (hdue : due ≤ latest d)
    (htick : tick ≤ d.scheduler.tick) (fuel : Nat) :
    (Dialogue.host stage).runDue (run (manner interval sound)) id (fuel + 1) d =
      ((Dialogue.host stage).resume (run (manner interval sound)) id d).andThen
        ((Dialogue.host stage).runDue (run (manner interval sound)) id fuel) := by
  obtain ⟨t, ht, hleft, hwake, hwakeTick⟩ := h.task
  exact Host.runDue_due _ _ ht (Task.left?_eq_some.1 hleft).2 (by rw [hwakeTick]; exact htick)
    (by rw [hwake]; exact hdue) fuel

/-- It is resumed only once if it is not due behind that. -/
theorem Reads.runDue_once (h : Reads sound text after id before due tick n d)
    (hdue : due ≤ latest d) (htick : tick ≤ d.scheduler.tick) {d' : Recital Rat}
    (hresume : (Dialogue.host stage).resume (run (manner interval sound)) id d = (d', none))
    (hquiet : ∀ t, d'.scheduler.task? id = some t → ¬d'.scheduler.Ripe t) (fuel : Nat) :
    (Dialogue.host stage).runDue (run (manner interval sound)) id (fuel + 1) d = (d', none) := by
  rw [h.runDue hdue htick, hresume, Attempt.andThen_none]
  exact Host.Conduct.runDue_unripe _ _ hquiet fuel

/-- The clock is advanced by an update. -/
def advanced (dt : Rat) (d : Recital Rat) : Recital Rat := { d with
  scheduler := { d.scheduler with time := d.scheduler.time + dt, tick := d.scheduler.tick + 1 } }

theorem Reads.advanced (h : Reads sound text after id before due tick n d) (dt : Rat) :
    Reads sound text after id before due tick n (advanced dt d) :=
  ⟨h.task, h.live, h.alone, h.revealed, h.revealing, h.skip, h.marks⟩

theorem HasRead.advanced (h : HasRead sound after before n d) (dt : Rat) :
    HasRead sound after before n (advanced dt d) :=
  ⟨h.ended, h.revealed, h.revealing, h.marks⟩

theorem Reads.swept (h : Reads sound text after id before due tick n d) :
    Reads sound text after id before due tick n ((Dialogue.host stage).sweep d) := by
  obtain ⟨t, ht, hleft, -⟩ := h.task
  refine ⟨h.task, List.mem_filter.2 ⟨h.live, ?_⟩, h.alone, h.revealed, h.revealing, h.skip, h.marks⟩
  show (!d.scheduler.isDone id) = true
  rw [Scheduler.isDone_of_task? ht, (Task.left?_eq_some.1 hleft).2]
  rfl

theorem HasRead.swept (h : HasRead sound after before n d) :
    HasRead sound after before n ((Dialogue.host stage).sweep d) :=
  ⟨h.ended, h.revealed, h.revealing, h.marks⟩

/-- An update runs the task that reveals the line, and nothing else. -/
theorem Reads.update (h : Reads sound text after id before due tick n d) {dt : Rat}
    {d' : Recital Rat}
    (hserve : (Dialogue.host stage).runDue (run (manner interval sound)) id (text.length + 2)
      (Recital.advanced dt d) = (d', none))
    (hquiet : ∀ j t, d'.scheduler.task? j = some t → ¬d'.scheduler.Ripe t) :
    Recital.update (manner interval sound) dt d = ((Dialogue.host stage).sweep d', none) := by
  have hbegun := h.advanced dt
  obtain ⟨t, ht, hleft, -⟩ := hbegun.task
  have hrounds : (Dialogue.host stage).roundsLeft Activity.rounds id (Recital.advanced dt d) =
      text.length + 2 := by
    obtain ⟨name, body, wakeTime, wakeTick, done, cancelled⟩ := t
    obtain ⟨hbody, -⟩ := Task.left?_eq_some.1 hleft
    cases hbody
    have ht' : ((Dialogue.host stage).scheduler (Recital.advanced dt d)).task? id =
      some ⟨name, .suspended (.reveal text after), wakeTime, wakeTick, done, cancelled⟩ := ht
    unfold Host.roundsLeft
    rw [ht']
    rfl
  rw [← hrounds] at hserve
  have hothers (j : TaskId) (hj : j ≠ id) (u : Task Rat (Activity (Option (List String))))
      (hu : (Recital.advanced dt d).scheduler.task? j = some u) :
      ¬(Recital.advanced dt d).scheduler.Ripe u :=
    Scheduler.not_ripe_of_isDone hu (hbegun.alone j hj)
  have hadvanced : (Dialogue.host stage).modify (fun c =>
      { c with time := d.scheduler.time + dt, tick := c.tick + 1 }) d = Recital.advanced dt d := rfl
  have hupdate := Host.update_of_round (Dialogue.host stage) (run (manner interval sound))
    Activity.rounds dt hadvanced (Host.round_alone hothers hserve hquiet hbegun.live)
  unfold Recital.update
  rw [show (manner interval sound).stage = stage from rfl, hupdate]
  rfl

/-- When the line is complete, an update runs nothing. -/
theorem HasRead.update (h : HasRead sound after before n d) (dt : Rat) :
    Recital.update (manner interval sound) dt d =
      ((Dialogue.host stage).sweep (Recital.advanced dt d), none) := by
  have hadvanced : (Dialogue.host stage).modify (fun c =>
      { c with time := d.scheduler.time + dt, tick := c.tick + 1 }) d = Recital.advanced dt d := rfl
  have hupdate := Host.update_of_round (Dialogue.host stage) (run (manner interval sound))
    Activity.rounds dt hadvanced (Host.round_quiet (h.advanced dt).quiet _)
  unfold Recital.update
  rw [show (manner interval sound).stage = stage from rfl, hupdate]
  rfl

/-! ## The beginning -/

/-- To cancel the task that reveals a line changes the tasks only, and the note of that one. -/
theorem cancelReveal_leaves (d : Recital Rat) :
    (d.cancelReveal stage).session = d.session ∧ (d.cancelReveal stage).outside = d.outside ∧
      SameClock d (d.cancelReveal stage) := by
  unfold Dialogue.cancelReveal
  cases d.reveal with
  | none => exact ⟨rfl, rfl, rfl, rfl⟩
  | some i =>
    obtain ⟨s, hcancel, htime, htick⟩ := Dialogue.host_cancel_tasks stage i d
    simp only [hcancel, SameClock, htime, htick, and_self]

/-- The calls with which a line is begun. -/
def opening (text : String) : List RecitalMark := [.call (.line text), .call (.visible 0)]

/-- A line that is about to be begun, where no task is left. -/
structure Blank (text : String) (d e : Recital Rat) : Prop where
  ended : ∀ j, e.scheduler.isDone j = true
  revealed : e.session.revealed = 0
  revealing : e.session.revealing = true
  skip : e.session.skip = false
  marks : e.outside.marks = d.outside.marks ++ opening text
  clock : SameClock d e

namespace Blank
variable {e : Recital Rat} (interval sound after) (h : Blank text d e)
include h

/-- If the line has characters, the first one is shown at once. -/
theorem reads (htext : 0 < text.length) : ∃ d' id,
    (Dialogue.host stage).start (.str "reveal_line")
      (run (manner interval sound) (.reveal text after)) e = ((d', none), id) ∧
    Reads sound text after id (d.outside.marks ++ opening text) (d.scheduler.time + interval)
      ((Request.wait interval).wakeTick d.scheduler.tick) 1 d' ∧ SameClock d d' := by
  let e' : Recital Rat := { e with scheduler := e.scheduler.enrol (.str "reveal_line") }
  have hnone : e'.session.revealed = 0 := h.revealed
  have hfirst : e'.session.revealed < text.length := by rw [hnone]; exact htext
  have hstart := host_start_suspend stage (.str "reveal_line")
    (run (manner interval sound) (.reveal text after)) (run_next hfirst h.skip) (.refl _) rfl
  have hnew : e'.scheduler.task? e.scheduler.tasks.length = _ := Scheduler.task?_enrol_new _ _
  refine ⟨_, _, hstart, ⟨⟨_, (Scheduler.task?_modify_self ..).trans (congrArg _ hnew), rfl, ?_, ?_⟩,
    List.mem_append_right _ (List.mem_singleton_self _), fun j hj => ?_, ?_, h.revealing, h.skip,
    ?_⟩, h.clock⟩
  · show e.scheduler.time + interval = _
    rw [h.clock.1]
  · show (Request.wait interval).wakeTick e.scheduler.tick = _
    rw [h.clock.2]
  · exact Scheduler.isDone_beside_enrol h.ended _ _ hj
  · show e'.session.revealed + 1 = 1
    rw [hnone]
  · show e.outside.marks ++ [.call (.visible ↑(e'.session.revealed + 1)), _] = _
    rw [h.marks, hnone]
    rfl

/-- If it has none, it is complete at once. -/
theorem hasRead (htext : text.length = 0) (hafter : ∀ wake, after = some wake → wake = []) :
    ∃ d' id, (Dialogue.host stage).start (.str "reveal_line")
        (run (manner interval sound) (.reveal text after)) e = ((d', none), id) ∧
      HasRead sound after (d.outside.marks ++ opening text) text.length d' ∧ SameClock d d' := by
  let e' : Recital Rat := { e with scheduler := e.scheduler.enrol (.str "reveal_line") }
  have hnone : e'.session.revealed = text.length := h.revealed.trans htext.symm
  obtain ⟨log, hrun⟩ := run_last interval sound hnone hafter
  have hstart := host_start_finish stage (.str "reveal_line")
    (run (manner interval sound) (.reveal text after)) hrun (.refl _)
  refine ⟨_, _, hstart, ⟨fun j => ?_, hnone, rfl, ?_⟩, h.clock⟩
  · by_cases hj : j = e.scheduler.tasks.length
    · subst hj
      show Scheduler.isDone (Scheduler.modify _ _ _) _ = true
      unfold Scheduler.isDone
      rw [Scheduler.task?_modify_self, show e'.scheduler.task? _ = _ from
        Scheduler.task?_enrol_new _ _]
      rfl
    · exact Scheduler.isDone_beside_enrol h.ended _ _ hj
  · show e.outside.marks ++ closing after = _
    rw [h.marks, htext, scrolled, scroll, List.map_nil, List.append_nil]

end Blank

/-- To begin a line is to start its task when all is blank. -/
theorem begin_eq (interval : Rat) (sound : Json) (after : Option (List String)) (hover : ∀ j,
      ((d.withSession (Session.beginLine text)).cancelReveal stage).scheduler.isDone j = true)
    (hskip : d.session.skip = false) : ∃ e, Blank text d e ∧ ∀ d' id,
    (Dialogue.host stage).start (.str "reveal_line")
      (run (manner interval sound) (.reveal text after)) e = ((d', none), id) →
    begin (manner interval sound) text after d = ({ d' with reveal := some id }, none) := by
  obtain ⟨hsession, houtside, hclock⟩ := cancelReveal_leaves (d.withSession (Session.beginLine text))
  obtain ⟨c, hc⟩ : ∃ c, (d.withSession (Session.beginLine text)).cancelReveal stage = c := ⟨_, rfl⟩
  rw [hc] at hsession houtside hclock hover
  refine ⟨{ c with
    session := { c.session with revealing := true, revealed := 0 }
    outside := { c.outside with marks := c.outside.marks ++ [.call (.line text)] ++
      [.call (.visible 0)] } }, ⟨hover, rfl, rfl, ?_, ?_, hclock⟩, fun d' id hstart => ?_⟩
  · show c.session.skip = false
    rw [hsession]
    exact hskip
  · show c.outside.marks ++ _ ++ _ = _
    rw [houtside, List.append_assoc]
    rfl
  · unfold begin Dialogue.startReveal
    rw [show (manner interval sound).stage = stage from rfl, hc]
    exact congrArg (fun r : Attempt (Recital Rat) Misfit × TaskId =>
      (r.1.mapError Fault.misfit).andThen fun d => ({ d with reveal := some r.2 }, none)) hstart

/-- A line that was just begun in `d`: it shows its first character, or it has none and is
complete. -/
inductive Begun (interval : Rat) (sound : Json) (text : String) (after : Option (List String))
    (d d' : Recital Rat) : Prop
  | reading {id : TaskId} (some : 0 < text.length)
    (reads : Reads sound text after id (d.outside.marks ++ opening text)
      (d.scheduler.time + interval) ((Request.wait interval).wakeTick d.scheduler.tick) 1 d')
    (clock : SameClock d d')
  | complete (none : text.length = 0)
    (read : HasRead sound after (d.outside.marks ++ opening text) text.length d')
    (clock : SameClock d d')

theorem begin_begun (interval : Rat) (sound : Json) (hover : ∀ j,
      ((d.withSession (Session.beginLine text)).cancelReveal stage).scheduler.isDone j = true)
    (hskip : d.session.skip = false) (hafter : ∀ wake, after = some wake → wake = []) :
    ∃ d', begin (manner interval sound) text after d = (d', none) ∧
      Begun interval sound text after d d' := by
  obtain ⟨e, hblank, hbegin⟩ := begin_eq interval sound after hover hskip
  by_cases htext : text.length = 0
  · obtain ⟨d', id, hstart, hread, hclock⟩ := hblank.hasRead interval sound after htext hafter
    exact ⟨_, hbegin d' id hstart, .complete htext
      ⟨hread.ended, hread.revealed, hread.revealing, hread.marks⟩ hclock⟩
  · have hpos := Nat.pos_of_ne_zero htext
    obtain ⟨d', id, hstart, hreads, hclock⟩ := hblank.reads interval sound after hpos
    exact ⟨_, hbegin d' id hstart, .reading hpos ⟨hreads.task, hreads.live, hreads.alone,
      hreads.revealed, hreads.revealing, hreads.skip, hreads.marks⟩ hclock⟩

theorem Begun.clock {d' : Recital Rat} (h : Begun interval sound text after d d') :
    SameClock d d' := by
  cases h with
  | reading _ _ clock | complete _ _ clock => exact clock

end Recital
end VisualNovel
