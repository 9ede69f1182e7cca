import VisualNovel.Proofs.Dialogue.Steps
import VisualNovel.Proofs.Dialogue.Updates
/-!
# Time passes in a chamber

Between two commands no task is being run (`Chamber.Rests`), and an update keeps it so
(`update_kept`). If a skip was asked for, and the task that reveals the line is due, an update
completes the line (`update_completes`).
-/
namespace VisualNovel

/-- What a dialogue in a chamber keeps between two commands. -/
structure Chamber.Rests {τ ω : Type} (S : Chamber τ ω) (d : Dialogue τ Unit ω) : Prop extends
    S.Kept d where
  rest : Dialogue.AtRest d.scheduler

namespace Dialogue
open Story (Player)
variable {τ ω : Type} {S : Chamber τ ω} {d d' : Dialogue τ Unit ω} {id : TaskId}
  {t : Task τ (Activity Unit)}

theorem Lands.rests (h : Lands S d d') (hd : S.Rests d) : S.Rests d' :=
  ⟨h.kept, hd.rest.follows h.follows⟩

/-- A dialogue rests in any chamber with as much room and the same timetable, if it shows the same
there. -/
theorem rests_recast (S' : Chamber τ ω) {o : ω} (h : S.Rests d) (hslots : S'.slots = S.slots)
    (htable : S'.table = S.table) (hfrail : S.frail → S'.frail) (ho : S'.ok o)
    (hshows : (S'.prospect o).Shows (d.session.pending.map Button.ofChoice))
    (hears : (S'.prospect o).ears = (S.prospect d.outside).ears) :
    S'.Rests { d with outside := o } := by
  have hdue : S'.Due d.scheduler = S.Due d.scheduler := by
    unfold Chamber.Due
    rw [htable]
  exact ⟨⟨⟨ho, hdue ▸ h.orderly, htable ▸ h.time, h.revealed⟩, hshows, hears.trans h.ears, h.story,
    (h.doing.recast hslots hfrail).outside o⟩, h.rest⟩

/-- What waits in a dialogue that rests. -/
theorem rests_waits (h : S.Rests d) (ht : d.scheduler.task? id = some t) (hd : t.done = false) :
    ∃ rest, t.left? = some rest ∧ S.Due d.scheduler t rest ∧ id ∈ d.scheduler.live := by
  rcases h.orderly.listed id t ht hd with hb | ⟨⟨rest, hl, hP⟩, hlive⟩
  · exact absurd hb (h.rest id t ht)
  · exact ⟨rest, hl, hP, hlive⟩

theorem Reveals.unique {text : String} {i : TaskId} {u : Task τ (Activity Unit)}
    (h : Reveals d.scheduler d.reveal d.focus text i u) (ht : own? d.scheduler id = some t) :
    id = i ∧ t = u := by
  have hi : id = i := Decidable.byContradiction fun hne => by
    rw [h.only id hne] at ht
    cases ht
  subst hi
  exact ⟨rfl, Option.some.inj (ht.symm.trans h.waits)⟩

theorem Focusing.unique {i : TaskId} {u : Task τ (Activity Unit)}
    (h : Focusing d.scheduler d.reveal d.focus i u) (ht : own? d.scheduler id = some t) :
    id = i ∧ t = u := by
  have hi : id = i := Decidable.byContradiction fun hne => by
    rw [h.only id hne] at ht
    cases ht
  subst hi
  exact ⟨rfl, Option.some.inj (ht.symm.trans h.waits)⟩

/-- A task of the dialogue's own that waits is the one that reveals the line, or it focuses the
first choice. -/
theorem own_of_kept (h : S.Kept d) (ht : own? d.scheduler id = some t) :
    (d.session.revealing = true ∧ Reveals d.scheduler d.reveal d.focus d.session.line id t) ∨
      (d.session.revealing = false ∧ Focusing d.scheduler d.reveal d.focus id t) := by
  have hfree (h : Free d.scheduler d.reveal d.focus) : False := by
    rw [h.none id] at ht
    cases ht
  cases h.doing with
  | away _ _ _ _ free | waiting _ _ _ _ _ free => exact (hfree free).elim
  | reading _ revealing _ _ task =>
    obtain ⟨i, u, hu⟩ := task
    obtain ⟨rfl, rfl⟩ := hu.unique ht
    exact Or.inl ⟨revealing, hu⟩
  | offering _ revealing _ _ _ _ tasks =>
    rcases tasks with free | ⟨i, u, hu⟩
    · exact (hfree free).elim
    · obtain ⟨rfl, rfl⟩ := hu.unique ht
      exact Or.inr ⟨revealing, hu⟩

/-! ## Resuming -/

variable [Clock τ] {w : Wiring τ ω}

omit [Clock τ] in
/-- When the task that reveals a line is being run, no other one of the dialogue's own waits. -/
theorem Reveals.awaken {text : String} (h : Reveals d.scheduler d.reveal d.focus text id t) :
    Free (awaken id d.scheduler) none d.focus := by
  obtain ⟨ht, -⟩ := Scheduler.waits?_eq_some.1 h.waits
  refine ⟨fun j => ?_, spent_none _, fun i hi => (h.focus i hi).modify fun _ _ hd => hd⟩
  by_cases hj : j = id
  · subst hj
    exact Scheduler.waits?_of_running (task?_awaken ht) rfl
  · exact (Scheduler.waits?_modify_of_ne _ _ hj).trans (h.only j hj)

/-- The next character of a line is shown, and its task waits again. -/
theorem resume_more (hw : S.Fits w) (h : S.Rests d) (hr : d.session.revealing = true)
    (hrev : Reveals d.scheduler d.reveal d.focus d.session.line id t)
    (hdue : d.scheduler.isDue t = true)
    (hmore : d.session.revealed < d.session.line.length ∧ d.session.skip = false) :
    ∃ d', (host w.stage).resume (run w) id d = (d', none) ∧ S.Rests d' ∧
      d'.session.active = d.session.active := by
  obtain ⟨ht, rest, hl, -⟩ := Scheduler.waits?_eq_some.1 hrev.waits
  obtain ⟨hb, hd⟩ := Task.left?_eq_some.1 hl
  obtain ⟨rest', hl', hP, hlive⟩ := rests_waits h ht hd
  rw [hrev.rest] at hb
  cases hb
  cases hl.symm.trans hl'
  obtain ⟨o, hrun, hk⟩ := runReveal_more hw (d := { d with scheduler := awaken id d.scheduler })
    h.ok d.session.line (lineRevealed w) hmore.1 hmore.2
  obtain ⟨wakeTime, hwake⟩ := hw.runs.wait _ (hw.runs.wakes _ _ _ _ hP)
  have hresume := host_resume_suspend w.stage (run w) ht hl hrun (.refl _) hwake
  obtain ⟨hown, honly⟩ := own?_pause hrev.awaken.none (task?_awaken ht) hd
    (show (Activity.reveal d.session.line ()).isOwn = true from rfl) wakeTime
    ((Request.wait w.manner.interval).wakeTick d.scheduler.tick)
  have hdue' := hw.runs.again _ _ _ _ _ hP (by
    unfold Scheduler.isDue at hdue
    exact (Bool.and_eq_true_iff.1 hdue).2) hwake
  have hprospect : S.prospect o = S.prospect d.outside := hk.2
  refine ⟨_, hresume, ⟨⟨⟨hk.1, (orderly_awaken h.orderly id).pause (task?_awaken ht) hlive hdue',
    h.time, hmore.1⟩, ?_, ?_, h.story, ?_⟩,
    h.rest.settle (.refl _) (Task.pause_ne_running _ _ _)⟩, rfl⟩
  · show (S.prospect o).Shows (d.session.pending.map Button.ofChoice)
    rw [hprospect]
    exact h.shows
  · show (S.prospect o).ears = if d.session.active then 1 else 0
    rw [hprospect]
    exact h.ears
  · cases h.doing with
    | away _ revealing | offering _ revealing | waiting _ revealing =>
      rw [hr] at revealing
      cases revealing
    | reading active revealing phase pending =>
      exact .reading active revealing phase pending ⟨id, _, hrev.noted, hown, rfl, honly,
        fun i hi => (hrev.awaken.focus i hi).modify fun _ _ hd => hd⟩

/-- The last run of the task that reveals a line completes it. -/
theorem resume_last (hw : S.Fits w) (h : S.Rests d) (hr : d.session.revealing = true)
    (hrev : Reveals d.scheduler d.reveal d.focus d.session.line id t)
    (hlast : ¬(d.session.revealed < d.session.line.length ∧ d.session.skip = false)) {p : Player}
    (hp : d.story = some p) :
    ∃ d', (host w.stage).resume (run w) id d = (d', none) ∧ S.Rests d' ∧
      Completed S p (S.news d) d.session.line d' := by
  obtain ⟨ht, rest, hl, -⟩ := Scheduler.waits?_eq_some.1 hrev.waits
  obtain ⟨hb, hd⟩ := Task.left?_eq_some.1 hl
  rw [hrev.rest] at hb
  cases hb
  cases h.doing with
  | away _ revealing | offering _ revealing | waiting _ revealing =>
    rw [hr] at revealing
    cases revealing
  | reading active revealing phase pending =>
    have hears := h.ears
    rw [active] at hears
    have hshows := h.shows
    rw [pending] at hshows
    obtain ⟨d', hrun, hl', hc⟩ := runReveal_completes hw
      (d := { d with scheduler := awaken id d.scheduler })
      ⟨h.ok, orderly_awaken h.orderly id, h.time, h.revealed⟩ active pending hp hrev.awaken hears
      hshows rfl hlast
    have ht' := hl'.follows.task?_running (task?_awaken ht) rfl
    refine ⟨_, host_resume_finish w.stage (run w) ht hl hrun, ⟨?_, ?_⟩,
      ⟨⟨hc.story, hc.active, hc.revealing, hc.skip, hc.pending, hc.phase⟩, hc.dark⟩, hc.line,
      hc.revealed⟩
    · exact hl'.kept.reschedule (s := d'.scheduler.modify id Task.finish)
        (hl'.kept.orderly.finish id) hl'.kept.time (alike_finish ht' rfl)
    · exact h.rest.settle hl'.follows Task.finish_ne_running

/-- The first choice is focused. -/
theorem resume_focusing (hw : S.Fits w) (h : S.Rests d) (hr : d.session.revealing = false)
    (hf : Focusing d.scheduler d.reveal d.focus id t) :
    ∃ s o, (host w.stage).resume (run w) id d =
        ({ d with scheduler := s, outside := o }, none) ∧
      S.Rests { d with scheduler := s, outside := o } ∧
      (S.prospect o).news = (S.prospect d.outside).news := by
  obtain ⟨ht, rest, hl, -⟩ := Scheduler.waits?_eq_some.1 hf.waits
  have hb := (Task.left?_eq_some.1 hl).1
  rw [hf.rest] at hb
  cases hb
  obtain ⟨o, hshow, hk⟩ := hw.perform_eq (d := { d with scheduler := awaken id d.scheduler }) h.ok
    (.focus 0) trivial rfl
  have hresume := host_resume_finish w.stage (run w) ht hl
    (show run w .focusChoice { d with scheduler := awaken id d.scheduler } = _ by
      unfold run; rw [hshow]; rfl)
  have ht' := task?_awaken ht
  have hfree : Free ((awaken id d.scheduler).modify id Task.finish) d.reveal d.focus := by
    refine ⟨fun j => ?_, fun i hi => ?_, fun i hi => ?_⟩
    · by_cases hj : j = id
      · subst hj
        exact Scheduler.waits?_of_isOver (Scheduler.isOver_finish ht')
      · exact (Scheduler.waits?_modify_of_ne _ _ hj).trans
          ((Scheduler.waits?_modify_of_ne _ _ hj).trans (hf.only j hj))
    · exact (alike_finish ht' rfl).ended i ((hf.reveal i hi).modify fun _ _ hd => hd)
    · rw [hf.noted] at hi
      cases hi
      exact Scheduler.isOver_finish ht'
  have hprospect : S.prospect o = (S.prospect d.outside).after (.focus 0) := hk.2
  refine ⟨_, o, hresume, ⟨⟨⟨hk.1, (orderly_awaken h.orderly id).finish id, h.time, h.revealed⟩,
    ?_, ?_, h.story, ?_⟩, h.rest.settle (.refl _) Task.finish_ne_running⟩, ?_⟩
  · show (S.prospect o).Shows (d.session.pending.map Button.ofChoice)
    rw [hprospect]
    exact h.shows.after nofun nofun
  · show (S.prospect o).ears = if d.session.active then 1 else 0
    rw [hprospect]
    exact h.ears
  · cases h.doing with
    | away active revealing skip pending => exact .away active revealing skip pending hfree
    | reading _ revealing =>
      rw [hr] at revealing
      cases revealing
    | offering active revealing skip phase some pending =>
      exact .offering active revealing skip phase some pending (Or.inl hfree)
    | waiting active revealing skip pending phase =>
      exact .waiting active revealing skip pending phase hfree
  · rw [hprospect]
    rfl

/-- The start button is focused, which is not the dialogue's own business. -/
theorem resume_start (hw : S.Fits w) (h : S.Rests d) (ht : d.scheduler.task? id = some t)
    (hl : t.left? = some .focusStart) :
    ∃ s, (host w.stage).resume (run w) id d =
        ({ d with scheduler := s, outside := w.focusStart d.outside }, none) ∧
      S.Rests { d with scheduler := s, outside := w.focusStart d.outside } ∧
      Alike d.scheduler s ∧ s.time = d.scheduler.time ∧ s.tick = d.scheduler.tick ∧
      (S.prospect (w.focusStart d.outside)).news = (S.prospect d.outside).news := by
  have hresume := host_resume_finish w.stage (run w) ht hl
    (show run w .focusStart { d with scheduler := awaken id d.scheduler } = _ from rfl)
  have hk := hw.focusStart d.outside h.ok
  have hprospect : S.prospect (w.focusStart d.outside) = (S.prospect d.outside).atStart := hk.2
  have hown : own? d.scheduler id = none := by
    unfold own? Scheduler.waits?
    rw [ht]
    simp [hl, Activity.isOwn]
  have halike : Alike d.scheduler ((awaken id d.scheduler).modify id Task.finish) := by
    have h₁ := alike_awaken ht hown
    have h₂ := alike_finish (task?_awaken ht) rfl
    exact ⟨fun j => (h₂.own j).trans (h₁.own j), fun j hj => h₂.ended j (h₁.ended j hj)⟩
  have hkept : S.Kept { d with outside := w.focusStart d.outside } := by
    refine h.toKept.outside hk.1 ?_ ?_
    · rw [hprospect]
      exact h.shows.atStart
    · rw [hprospect]
      rfl
  refine ⟨_, hresume, ⟨hkept.reschedule
    (s := (awaken id d.scheduler).modify id Task.finish)
    ((orderly_awaken h.orderly id).finish id) h.time halike,
    h.rest.settle (.refl _) Task.finish_ne_running⟩, halike, rfl, rfl, ?_⟩
  rw [hprospect]
  rfl

/-- While no line is being revealed, a task that is resumed changes nothing of the session. -/
theorem resume_still (hw : S.Fits w) (h : S.Rests d) (hr : d.session.revealing = false)
    (ht : d.scheduler.task? id = some t) (hd : t.done = false) :
    ∃ s o, (host w.stage).resume (run w) id d =
        ({ d with scheduler := s, outside := o }, none) ∧
      S.Rests { d with scheduler := s, outside := o } ∧
      (S.prospect o).news = (S.prospect d.outside).news := by
  obtain ⟨rest, hl, -, -⟩ := rests_waits h ht hd
  by_cases hown : rest.isOwn = true
  · rcases own_of_kept h.toKept (Scheduler.waits?_eq_some.2 ⟨ht, rest, hl, hown⟩) with
        ⟨hr', -⟩ | ⟨-, hf⟩
    · rw [hr] at hr'
      cases hr'
    · exact resume_focusing hw h hr hf
  · cases rest with
    | reveal | focusChoice => exact absurd rfl hown
    | focusStart =>
      obtain ⟨s, hs, hrest, -, -, -, hnews⟩ := resume_start hw h ht hl
      exact ⟨s, _, hs, hrest, hnews⟩

/-- Whatever task is resumed that is due, the dialogue rests afterwards, and runs if it did. -/
theorem resume_kept (hw : S.Fits w) (h : S.Rests d) (ht : d.scheduler.task? id = some t)
    (hd : t.done = false) (hdue : d.scheduler.isDue t = true) :
    ∃ d', (host w.stage).resume (run w) id d = (d', none) ∧ S.Rests d' ∧
      d'.session.active = d.session.active := by
  cases hr : d.session.revealing with
  | false =>
    obtain ⟨s, o, hs, hrest, -⟩ := resume_still hw h hr ht hd
    exact ⟨_, hs, hrest, rfl⟩
  | true =>
    obtain ⟨rest, hl, -, -⟩ := rests_waits h ht hd
    by_cases hown : rest.isOwn = true
    · rcases own_of_kept h.toKept (Scheduler.waits?_eq_some.2 ⟨ht, rest, hl, hown⟩) with
        ⟨-, hrev⟩ | ⟨hr', -⟩
      · by_cases hmore : d.session.revealed < d.session.line.length ∧ d.session.skip = false
        · exact resume_more hw h hr hrev hdue hmore
        · cases h.doing with
          | away _ revealing | offering _ revealing | waiting _ revealing =>
            rw [hr] at revealing
            cases revealing
          | reading active =>
            obtain ⟨p, hp⟩ := h.story active
            obtain ⟨d', hs, hrest, hc⟩ := resume_last hw h hr hrev hmore hp
            exact ⟨d', hs, hrest, hc.active.trans active.symm⟩
      · rw [hr] at hr'
        cases hr'
    · cases rest with
      | reveal | focusChoice => exact absurd rfl hown
      | focusStart =>
        obtain ⟨s, hs, hrest, -⟩ := resume_start hw h ht hl
        exact ⟨_, hs, hrest, rfl⟩

/-! ## Updates -/

omit [Clock τ] in
theorem sweep_kept (h : S.Rests d) : S.Rests ((host w.stage).sweep d) :=
  ⟨h.toKept.reschedule h.orderly.sweep h.time ⟨fun _ => rfl, fun _ h => h⟩, h.rest⟩

theorem pass_kept (hw : S.Fits w) (h : S.Rests d) {dt time : τ} (hdt : S.table.step dt)
    (hadd : Clock.add d.scheduler.time dt = .ok time) :
    S.Rests ((host w.stage).modify (fun c => { c with time, tick := c.tick + 1 }) d) := by
  refine ⟨h.toKept.reschedule (s := { d.scheduler with time, tick := d.scheduler.tick + 1 })
    ⟨h.orderly.nodup, h.orderly.bound, fun id t ht hd => ?_⟩
    (hw.runs.pass _ _ _ h.time hdt hadd) ⟨fun _ => rfl, fun _ h => h⟩, h.rest⟩
  refine (h.orderly.listed id t ht hd).imp_right fun ⟨⟨rest, hl, hP⟩, hlive⟩ => ⟨⟨rest, hl, ?_⟩, hlive⟩
  exact hw.runs.later _ _ _ _ _ _ hP hdt hadd

/-- After an update a dialogue rests, and runs if it did. -/
theorem update_kept (hw : S.Fits w) (h : S.Rests d) {dt : τ} (hdt : S.table.step dt) :
    ∃ d' e, d.update w dt = (d', e) ∧ S.Rests d' ∧ d'.session.active = d.session.active ∧
      ∀ f, e = some f → ∃ m, f = .misfit m := by
  have hkept := Host.update_keeps (host w.stage) (run w)
    (J := fun c => S.Rests c ∧ c.session.active = d.session.active) Activity.rounds dt ⟨h, rfl⟩
    (fun time hadd => ⟨pass_kept hw h hdt hadd, rfl⟩)
    (fun c id t hc ht hd hdue => by
      obtain ⟨c', hs, hrest, hact⟩ := resume_kept hw hc.1 ht hd hdue
      rw [hs]
      exact ⟨hrest, hact.trans hc.2⟩)
    fun c hc => ⟨sweep_kept hc.1, hc.2⟩
  refine ⟨_, _, rfl, hkept.1, hkept.2, fun f hf => ?_⟩
  obtain ⟨m, -, rfl⟩ := Option.map_eq_some_iff.1 hf
  exact ⟨m, rfl⟩

/-! ## A line is completed -/

/-- A line whose rest is to be shown at once by a task that is due. -/
structure Hastens (S : Chamber τ ω) (p : Player) (ns : List Notice) (text : String) (id : TaskId)
    (d : Dialogue τ Unit ω) : Prop where
  rests : S.Rests d
  story : d.story = some p
  revealing : d.session.revealing = true
  skip : d.session.skip = true
  line : d.session.line = text
  news : S.news d = ns
  due : ∃ t, Reveals d.scheduler d.reveal d.focus d.session.line id t ∧ d.scheduler.isDue t = true

/-- A line that was completed and a dialogue that rests. -/
structure Finished (S : Chamber τ ω) (p : Player) (ns : List Notice) (text : String)
    (d : Dialogue τ Unit ω) : Prop extends Paused S p (ns ++ [.lineRevealed text]) d where
  line : d.session.line = text
  revealed : d.session.revealed = text.length
  rests : S.Rests d

variable {p : Player} {ns : List Notice} {text : String}

theorem hastens_due (w : Wiring τ ω) (h : Hastens S p ns text id d) :
    0 < (host w.stage).roundsLeft Activity.rounds id d ∧ ∃ t, d.scheduler.task? id = some t ∧
      t.done = false ∧ d.scheduler.isDue t = true := by
  obtain ⟨t, hrev, hdue⟩ := h.due
  obtain ⟨ht, rest, hl, -⟩ := Scheduler.waits?_eq_some.1 hrev.waits
  obtain ⟨-, hd⟩ := Task.left?_eq_some.1 hl
  refine ⟨?_, t, ht, hd, hdue⟩
  have hbody := hrev.rest
  obtain ⟨name, body, wakeTime, wakeTick, done, cancelled⟩ := t
  cases hbody
  have ht' : ((host w.stage).scheduler d).task? id = some
    ⟨name, .suspended (.reveal d.session.line ()), wakeTime, wakeTick, done, cancelled⟩ := ht
  unfold Host.roundsLeft
  rw [ht']
  exact Nat.succ_pos _

/-- The task that is due completes the line. -/
theorem resume_hastens (hw : S.Fits w) (h : Hastens S p ns text id d) :
    ∃ d', (host w.stage).resume (run w) id d = (d', none) ∧ Finished S p ns text d' := by
  obtain ⟨t, hrev, -⟩ := h.due
  obtain ⟨d', he, hrest, hc⟩ := resume_last hw h.rests h.revealing hrev
    (fun hmore => by rw [h.skip] at hmore; cases hmore.2) h.story
  rw [h.news, h.line] at hc
  exact ⟨d', he, hc.toPaused, hc.line, hc.revealed, hrest⟩

/-- The other tasks leave the line alone. -/
theorem resume_beside (hw : S.Fits w) (h : Hastens S p ns text id d) {j : TaskId} (hj : j ≠ id)
    (ht : d.scheduler.task? j = some t) (hd : t.done = false) :
    ∃ d', (host w.stage).resume (run w) j d = (d', none) ∧ Hastens S p ns text id d' := by
  obtain ⟨u, hrev, hdue⟩ := h.due
  obtain ⟨rest, hl, -, -⟩ := rests_waits h.rests ht hd
  have hforeign : ¬rest.isOwn = true := fun hown =>
    hj (hrev.unique (Scheduler.waits?_eq_some.2 ⟨ht, rest, hl, hown⟩)).1
  cases rest with
  | reveal | focusChoice => exact absurd rfl hforeign
  | focusStart =>
    obtain ⟨s, hs, hrest, halike, htime, htick, hnews⟩ := resume_start hw h.rests ht hl
    refine ⟨_, hs, hrest, h.story, h.revealing, h.skip, h.line, hnews.trans h.news, u,
      hrev.alike halike, ?_⟩
    unfold Scheduler.isDue at hdue ⊢
    rw [htime, htick]
    exact hdue

/-- A line that was completed stays so. -/
theorem resume_finished (hw : S.Fits w) (h : Finished S p ns text d)
    (ht : d.scheduler.task? id = some t) (hd : t.done = false) :
    ∃ d', (host w.stage).resume (run w) id d = (d', none) ∧ Finished S p ns text d' := by
  obtain ⟨s, o, hs, hrest, hnews⟩ := resume_still hw h.rests h.revealing ht hd
  have hnews' : S.news { d with scheduler := s, outside := o } = S.news d := hnews
  refine ⟨_, hs, ⟨h.story, h.active, h.revealing, h.skip, h.pending, ?_⟩, h.line, h.revealed,
    hrest⟩
  rw [hnews']
  exact h.phase

/-- If a skip was asked for and the task that reveals the line will be due, an update completes the
line. -/
theorem update_completes (hw : S.Fits w) (h : S.Rests d) {dt time : τ} (hdt : S.table.step dt)
    (hadd : Clock.add d.scheduler.time dt = .ok time) (hskip : d.session.skip = true)
    (hr : d.session.revealing = true) (hp : d.story = some p)
    (hrev : Reveals d.scheduler d.reveal d.focus d.session.line id t)
    (hdue : ({ d.scheduler with time, tick := d.scheduler.tick + 1 } :
      Scheduler τ (Activity Unit)).isDue t = true) :
    ∃ d', d.update w dt = (d', none) ∧ Finished S p (S.news d) d.session.line d' := by
  obtain ⟨ht, rest, hl, -⟩ := Scheduler.waits?_eq_some.1 hrev.waits
  obtain ⟨hb, hd⟩ := Task.left?_eq_some.1 hl
  obtain ⟨-, -, -, hlive⟩ := rests_waits h ht hd
  have hstart : Hastens S p (S.news d) d.session.line id
      ((host w.stage).modify (fun c => { c with time, tick := c.tick + 1 }) d) :=
    ⟨pass_kept hw h hdt hadd, hp, hr, hskip, rfl, rfl, t, hrev.alike ⟨fun _ => rfl, fun _ h => h⟩,
      hdue⟩
  obtain ⟨d', he, hfinished⟩ := Host.update_brings (host w.stage) (run w)
    (J := Hastens S p (S.news d) d.session.line id) (C := Finished S p (S.news d) d.session.line)
    Activity.rounds hadd hlive hstart (fun d h => hastens_due w h)
    (fun d h => resume_hastens hw h) (fun d j t h hj ht hd => resume_beside hw h hj ht hd)
    (fun d j t h ht hd => resume_finished hw h ht hd)
    fun d h => ⟨⟨h.story, h.active, h.revealing, h.skip, h.pending, h.phase⟩, h.line, h.revealed,
      sweep_kept h.rests⟩
  exact ⟨d', by unfold update; rw [he]; rfl, hfinished⟩

end Dialogue
end VisualNovel
