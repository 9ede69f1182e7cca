import VisualNovel.Proofs.Dialogue.Commands
/-!
# Updates keep a dialogue steady

Between two commands no task is being run (`AtRest`). An update resumes the tasks that are due, one
after the other; each run of a task keeps what a command keeps.
-/
namespace VisualNovel.Dialogue
variable {τ ω : Type}

/-- No task is being run. -/
def AtRest (s : Scheduler τ (Activity Unit)) : Prop :=
  ∀ id t, s.task? id = some t → t.body ≠ .running

theorem AtRest.follows {s s' : Scheduler τ (Activity Unit)} (h : AtRest s) (hf : s.Follows s') :
    AtRest s' := fun id t ht hb => h id t ((hf.running id t hb).1 ht) hb

/-- When the run of a task is settled, no task is being run. -/
theorem AtRest.settle {s s' : Scheduler τ (Activity Unit)} {id : TaskId} (h : AtRest s)
    (hf : (awaken id s).Follows s') {f : Task τ (Activity Unit) → Task τ (Activity Unit)}
    (hfb : ∀ t, (f t).body ≠ .running) : AtRest (s'.modify id f) := by
  intro j t ht hb
  by_cases hj : j = id
  · subst hj
    rw [Scheduler.task?_modify_self, Option.map_eq_some_iff] at ht
    obtain ⟨t', -, rfl⟩ := ht
    exact hfb t' hb
  · rw [Scheduler.task?_modify_of_ne _ _ hj, hf.running j t hb, awaken,
      Scheduler.task?_modify_of_ne _ _ hj] at ht
    exact h j t ht hb

/-- What holds between two commands. -/
structure Resting (S : Venue τ ω) (d : Dialogue τ Unit ω) : Prop where
  steady : S.Steady d
  rest : AtRest d.scheduler
  calm : S.calm → S.Composed d d.session.moment

variable {S : Venue τ ω} {d : Dialogue τ Unit ω} {id : TaskId} {t : Task τ (Activity Unit)}

/-- What waits in a dialogue that rests. -/
theorem Resting.waits (h : Resting S d) (ht : d.scheduler.task? id = some t)
    (hd : t.done = false) :
    ∃ rest, t.left? = some rest ∧ S.Timely t rest ∧ id ∈ d.scheduler.live := by
  rcases h.steady.orderly.listed id t ht hd with hb | ⟨⟨rest, hl, hP⟩, hlive⟩
  · exact absurd hb (h.rest id t ht)
  · exact ⟨rest, hl, hP, hlive⟩

theorem orderly_awaken {P : Task τ (Activity Unit) → Activity Unit → Prop}
    {s : Scheduler τ (Activity Unit)} (h : s.Orderly P) (id : TaskId) : (awaken id s).Orderly P :=
  h.modify id fun _ _ _ => Or.inl rfl

theorem task?_awaken {s : Scheduler τ (Activity Unit)} (ht : s.task? id = some t) :
    (awaken id s).task? id = some { t with body := .running } := by
  rw [awaken, Scheduler.task?_modify_self, ht]
  rfl

/-- A task of the dialogue's own that waits is the one that reveals the line, or it focuses the
first choice. -/
theorem own_cases (h : S.Steady d) (ht : own? d.scheduler id = some t) :
    (d.session.revealing = true ∧ Reveals d.scheduler d.reveal d.focus d.session.line id t) ∨
      (d.session.revealing = false ∧ Focusing d.scheduler d.reveal d.focus id t) := by
  cases hr : d.session.revealing with
  | true =>
    obtain ⟨i, u, hrev⟩ := h.reveals hr
    have hi : id = i := Decidable.byContradiction fun hne => by
      rw [hrev.only id hne] at ht
      cases ht
    subst hi
    rw [hrev.waits] at ht
    cases ht
    exact Or.inl ⟨rfl, hrev⟩
  | false =>
    rcases h.idles hr with hfree | ⟨i, u, hf⟩
    · rw [hfree.none id] at ht
      cases ht
    · have hi : id = i := Decidable.byContradiction fun hne => by
        rw [hf.only id hne] at ht
        cases ht
      subst hi
      rw [hf.waits] at ht
      cases ht
      exact Or.inr ⟨rfl, hf⟩

/-- A command leaves a resting dialogue behind, unless it ends it. -/
theorem Resting.lands {d' : Dialogue τ Unit ω} {turn : Turn} (h : Resting S d)
    (hl : S.Lands d d' turn) (ht : turn ≠ .ended) : Resting S d' := by
  refine ⟨hl.steady, h.rest.follows hl.follows, fun hcalm => ?_⟩
  have hcomp := (hl.calm hcalm).1
  cases turn with
  | ended => exact absurd rfl ht
  | done | refused | unreadable | failed => exact hcomp

/-! ## Resuming -/

variable [Clock τ] {w : Wiring τ ω}

theorem resume_reveal (hw : S.Suits w) (ha : S.Attends w) (h : Resting S d)
    (hr : d.session.revealing = true)
    (hrev : Reveals d.scheduler d.reveal d.focus d.session.line id t) :
    ∃ d', (host w.stage).resume (run w) id d = (d', none) ∧ Resting S d' := by
  obtain ⟨ht, rest, hl, -⟩ := Scheduler.waits?_eq_some.1 hrev.waits
  obtain ⟨hb, hd⟩ := Task.left?_eq_some.1 hl
  obtain ⟨rest', hl', ⟨hwake, hname⟩, hlive⟩ := h.waits ht hd
  have hrest : rest = .reveal d.session.line () := by
    rw [hrev.rest] at hb
    cases hb
    rfl
  rw [hl] at hl'
  cases hl'
  subst hrest
  have hnone (j : TaskId) : own? (awaken id d.scheduler) j = none := by
    by_cases hj : j = id
    · subst hj
      exact Scheduler.waits?_of_running (task?_awaken ht) rfl
    · exact (Scheduler.waits?_modify_of_ne _ _ hj).trans (hrev.only j hj)
  have hfocus : Spent (awaken id d.scheduler) d.focus := fun i hi =>
    (hrev.focus i hi).modify fun _ _ hd => hd
  obtain ⟨hact, hp, hline, hoff⟩ := h.steady.shows hr
  obtain ⟨line?, hunder, hl?⟩ := h.steady.pace
  by_cases hmore : d.session.revealed < d.session.line.length ∧ d.session.skip = false
  · obtain ⟨o, hrun, hk⟩ := runReveal_next hw (d := { d with scheduler := awaken id d.scheduler })
      h.steady.ok d.session.line (lineRevealed w) hmore.1 hmore.2
    obtain ⟨wakeTime, hw'⟩ := hw.wait _ hwake
    have hresume := host_resume_suspend w.stage (run w) ht hl hrun (.refl _) hw'
    obtain ⟨hown, honly⟩ := own?_pause hnone (task?_awaken ht) hd
      (show (Activity.reveal d.session.line ()).isOwn = true from rfl) wakeTime
      ((Request.wait w.manner.interval).wakeTick d.scheduler.tick)
    have hsight : S.sight o = S.sight d.outside := hk.2
    refine ⟨_, hresume, ⟨⟨hk.1, ?_, h.steady.time, hmore.1⟩, h.steady.phase, fun _ => hr,
      fun _ => ?_, fun _ => ?_, fun hr' => ?_, line?, hunder.outside (congrArg Sight.news hk.2), hl?⟩,
      h.rest.settle (.refl _) (Task.pause_ne_running _ _ _), fun hcalm => ?_⟩
    · exact (orderly_awaken h.steady.orderly id).pause (task?_awaken ht) hlive
        ⟨hw.pass _ _ _ hwake hw', hname⟩
    · rw [hsight]
      exact ⟨hact, hp, hline, hoff⟩
    · exact ⟨id, _, hrev.noted, hown, rfl, honly, fun i hi =>
        (hfocus i hi).modify fun _ _ hd => hd⟩
    · rw [show d.session.revealing = false from hr'] at hr
      cases hr
    · have hcomp := h.calm hcalm
      refine ⟨?_, ?_, hcomp.running, fun hna => ?_, hcomp.awaits, hcomp.pending,
        fun i u hi hb => ?_⟩
      · show History S.course (S.sight o).news (S.sight o).bows _ _
        rw [hsight]
        exact hcomp.chronicle
      · show (S.sight o).ears = _
        rw [hsight]
        exact hcomp.ears
      · rw [show d.session.active = false from hna] at hact
        cases hact
      · by_cases hid : i = id
        · subst hid
          rw [hown] at hi
          cases hi
          cases hb
        · rw [honly i hid] at hi
          cases hi
  · obtain ⟨d', hrun, hl', -⟩ := runReveal_last hw ha
      (d := { d with scheduler := awaken id d.scheduler })
      ⟨h.steady.ok, orderly_awaken h.steady.orderly id, h.steady.time, h.steady.revealed⟩
      ⟨hnone, spent_none _, hfocus⟩ hp rfl (by rw [hl? hact, hr] at hunder; exact hunder) hmore
      fun hcalm => by
        have hcomp := h.calm hcalm
        have hm : d.session.moment = .line d.session.line := by simp [Session.moment, hact, hr]
        refine ⟨hm ▸ hcomp.chronicle, ?_, hact⟩
        rw [hcomp.ears, hact]
        rfl
    have ht' := hl'.follows.task?_running (task?_awaken ht) rfl
    refine ⟨_, host_resume_finish w.stage (run w) ht hl hrun, ?_, ?_, fun hcalm => ?_⟩
    · exact hl'.steady.reschedule (hl'.steady.orderly.finish id) hl'.steady.time
        (alike_finish ht' rfl)
    · exact h.rest.settle hl'.follows Task.finish_ne_running
    · exact (hl'.calm hcalm).1.reschedule (alike_finish ht' rfl)

theorem resume_focus (hw : S.Suits w) (h : Resting S d) (hr : d.session.revealing = false)
    (hf : Focusing d.scheduler d.reveal d.focus id t) :
    ∃ d', (host w.stage).resume (run w) id d = (d', none) ∧ Resting S d' := by
  obtain ⟨ht, rest, hl, -⟩ := Scheduler.waits?_eq_some.1 hf.waits
  have hrest : rest = .focusChoice := by
    have hb := (Task.left?_eq_some.1 hl).1
    rw [hf.rest] at hb
    cases hb
    rfl
  subst hrest
  obtain ⟨o, hshow, hk⟩ := hw.perform_eq (d := { d with scheduler := awaken id d.scheduler })
    h.steady.ok (.focus 0) nofun
  have hresume := host_resume_finish w.stage (run w) ht hl
    (show run w .focusChoice { d with scheduler := awaken id d.scheduler } = _ by
      unfold run; rw [hshow]; rfl)
  have ht' := task?_awaken ht
  have hnone (j : TaskId) : own? ((awaken id d.scheduler).modify id Task.finish) j = none := by
    by_cases hj : j = id
    · subst hj
      exact Scheduler.waits?_of_isOver (Scheduler.isOver_finish ht')
    · exact (Scheduler.waits?_modify_of_ne _ _ hj).trans
        ((Scheduler.waits?_modify_of_ne _ _ hj).trans (hf.only j hj))
  have hfree : Free ((awaken id d.scheduler).modify id Task.finish) d.reveal d.focus := by
    refine ⟨hnone, fun i hi => ?_, fun i hi => ?_⟩
    · exact (alike_finish ht' rfl).ended i ((hf.reveal i hi).modify fun _ _ hd => hd)
    · rw [hf.noted] at hi
      cases hi
      exact Scheduler.isOver_finish ht'
  have hsight : S.sight o = S.sight d.outside := hk.2
  refine ⟨_, hresume, ⟨⟨hk.1, (orderly_awaken h.steady.orderly id).finish id, h.steady.time,
    h.steady.revealed⟩, h.steady.phase, h.steady.skip, fun hr' => ?_, fun hr' => ?_,
    fun _ => Or.inl hfree, ?_⟩, h.rest.settle (.refl _) Task.finish_ne_running, fun hcalm => ?_⟩
  · rw [show d.session.revealing = true from hr'] at hr
    cases hr
  · rw [show d.session.revealing = true from hr'] at hr
    cases hr
  · obtain ⟨line?, hunder, hl⟩ := h.steady.pace
    exact ⟨line?, hunder.outside (congrArg Sight.news hk.2), hl⟩
  · have hcomp := h.calm hcalm
    refine Venue.Composed.outside (d := { d with
      scheduler := (awaken id d.scheduler).modify id Task.finish }) ?_ hk
    refine ⟨hcomp.chronicle, hcomp.ears, hcomp.running, fun hna => ?_, hcomp.awaits, hcomp.pending,
      fun i u hi _ => ?_⟩
    · obtain ⟨hphase, hp, -⟩ := hcomp.resting hna
      exact ⟨hphase, hp, hfree⟩
    · rw [hnone i] at hi
      cases hi

theorem resume_other (hw : S.Suits w) (h : Resting S d) (ht : d.scheduler.task? id = some t)
    (hl : t.left? = some .focusStart) :
    ∃ s, (host w.stage).resume (run w) id d =
        ({ d with scheduler := s, outside := w.focusStart d.outside }, none) ∧
      Resting S { d with scheduler := s, outside := w.focusStart d.outside } := by
  have hresume := host_resume_finish w.stage (run w) ht hl
    (show run w .focusStart { d with scheduler := awaken id d.scheduler } = _ from rfl)
  have hk := hw.focusStart d.outside h.steady.ok
  have hown : own? d.scheduler id = none := by
    unfold own? Scheduler.waits?
    rw [ht]
    simp [hl, Activity.isOwn]
  have halike : Alike d.scheduler ((awaken id d.scheduler).modify id Task.finish) := by
    have h₁ := alike_awaken ht hown
    have h₂ := alike_finish (task?_awaken ht) rfl
    exact ⟨fun j => (h₂.own j).trans (h₁.own j), fun j hj => h₂.ended j (h₁.ended j hj)⟩
  refine ⟨_, hresume, ?_, h.rest.settle (.refl _) Task.finish_ne_running, fun hcalm => ?_⟩
  · exact (h.steady.outside hk.sameView).reschedule ((orderly_awaken h.steady.orderly id).finish id)
      h.steady.time halike
  · exact ((h.calm hcalm).outside hk).reschedule halike

/-- Whatever task is resumed that is not done, the dialogue rests afterwards. -/
theorem resume_rests (hw : S.Suits w) (ha : S.Attends w) (h : Resting S d)
    (ht : d.scheduler.task? id = some t) (hd : t.done = false) :
    ∃ d', (host w.stage).resume (run w) id d = (d', none) ∧ Resting S d' := by
  obtain ⟨rest, hl, -, -⟩ := h.waits ht hd
  by_cases hown : rest.isOwn = true
  · rcases own_cases h.steady (Scheduler.waits?_eq_some.2 ⟨ht, rest, hl, hown⟩) with
      ⟨hr, hrev⟩ | ⟨hr, hf⟩
    · exact resume_reveal hw ha h hr hrev
    · exact resume_focus hw h hr hf
  · cases rest with
    | reveal | focusChoice => exact absurd rfl hown
    | focusStart =>
      obtain ⟨s, hs, hrest⟩ := resume_other hw h ht hl
      exact ⟨_, hs, hrest⟩

/-! ## Updates -/

omit [Clock τ] in
theorem sweep_rests (h : Resting S d) : Resting S ((host w.stage).sweep d) :=
  ⟨h.steady.reschedule h.steady.orderly.sweep h.steady.time ⟨fun _ => rfl, fun _ h => h⟩, h.rest,
    fun hcalm => (h.calm hcalm).reschedule ⟨fun _ => rfl, fun _ h => h⟩⟩

theorem pass_rests (hw : S.Suits w) (h : Resting S d) {dt time : τ}
    (hadd : Clock.add d.scheduler.time dt = .ok time) :
    Resting S ((host w.stage).modify (fun c => { c with time, tick := c.tick + 1 }) d) :=
  ⟨h.steady.reschedule ⟨h.steady.orderly.nodup, h.steady.orderly.bound, h.steady.orderly.listed⟩
      (hw.pass _ _ _ h.steady.time hadd) ⟨fun _ => rfl, fun _ h => h⟩,
    h.rest, fun hcalm => (h.calm hcalm).reschedule ⟨fun _ => rfl, fun _ h => h⟩⟩

/-- After an update a dialogue rests; only a time that cannot be added to the clock may break the
update off. -/
theorem update_rests (hw : S.Suits w) (ha : S.Attends w) (h : Resting S d) (dt : τ) :
    ∃ d' e, d.update w dt = (d', e) ∧ Resting S d' ∧ ∀ f, e = some f → ∃ m, f = .misfit m := by
  have hrest := Host.update_keeps (host w.stage) (run w) (J := Resting S) Activity.rounds dt h
    (fun time hadd => pass_rests hw h hadd)
    (fun d id t h ht hd _ => by
      obtain ⟨d', hs, hrest⟩ := resume_rests hw ha h ht hd
      rw [hs]
      exact hrest)
    fun d h => sweep_rests h
  refine ⟨_, _, rfl, hrest, fun f hf => ?_⟩
  obtain ⟨m, -, rfl⟩ := Option.map_eq_some_iff.1 hf
  exact ⟨m, rfl⟩

/-- In a calm venue an update changes nothing but the scheduler of a dialogue that is not running,
for no task of its own is left. -/
theorem update_away (hw : S.Suits w) (h : Resting S d) (hcalm : S.calm)
    (hoff : d.session.active = false) (hstart : ∀ o, w.focusStart o = o) (dt : τ) :
    ∃ s e, d.update w dt = ({ d with scheduler := s }, e) ∧
      Resting S { d with scheduler := s } := by
  let J (d' : Dialogue τ Unit ω) : Prop := (∃ s, d' = { d with scheduler := s }) ∧ Resting S d'
  have hresume (d' : Dialogue τ Unit ω) (id : TaskId) (t : Task τ (Activity Unit)) (hJ : J d')
      (ht : d'.scheduler.task? id = some t) (hd : t.done = false)
      (_ : d'.scheduler.isDue t = true) : J ((host w.stage).resume (run w) id d').1 := by
    obtain ⟨⟨s, rfl⟩, hrest⟩ := hJ
    obtain ⟨rest, hl, -, -⟩ := hrest.waits ht hd
    have hfree := ((hrest.calm hcalm).resting hoff).2.2
    by_cases hown : rest.isOwn = true
    · have hsome : own? s id = some t := Scheduler.waits?_eq_some.2 ⟨ht, rest, hl, hown⟩
      rw [hfree.none id] at hsome
      cases hsome
    · cases rest with
      | reveal | focusChoice => exact absurd rfl hown
      | focusStart =>
        obtain ⟨s', hs', hrest'⟩ := resume_other hw hrest ht hl
        rw [hstart] at hs' hrest'
        rw [hs']
        exact ⟨⟨s', rfl⟩, hrest'⟩
  have hsweep (d' : Dialogue τ Unit ω) (hJ : J d') : J ((host w.stage).sweep d') := by
    obtain ⟨⟨s, rfl⟩, hrest⟩ := hJ
    exact ⟨⟨_, rfl⟩, sweep_rests hrest⟩
  obtain ⟨⟨s, hs⟩, hrest⟩ := Host.update_keeps (host w.stage) (run w) (J := J) Activity.rounds dt
    ⟨⟨d.scheduler, rfl⟩, h⟩ (fun time hadd => ⟨⟨_, rfl⟩, pass_rests hw h hadd⟩) hresume hsweep
  rw [hs] at hrest
  exact ⟨s, _, Prod.ext hs rfl, hrest⟩

end VisualNovel.Dialogue
