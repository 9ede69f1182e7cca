import VisualNovel.Proofs.Dialogue.Updates
import VisualNovel.Proofs.Scheduler.Growth
/-!
# What a dialogue keeps whatever it is refused

Whatever a dialogue asks of its surroundings may break off, and its command with it. Even then it
listens to the player exactly while it is active, and each of its tasks is done, or is being run, or
waits where an update finds it. A ward says which surroundings that leads to, and `Ward.Holds` what is
asked of a wiring for that; of its stage nothing is asked but that a theme can be turned off and
choices can be taken away.

Results:
* `begin_obeys`, `advance_obeys`, `choose_obeys`: what a command keeps.
* `update_warded`: what an update keeps.
* `shutdown_warded`: what is left of a dialogue that is broken off.
-/
namespace VisualNovel

/-- Which surroundings a dialogue may come to, while it listens to the player or not. -/
structure Ward (ω : Type) where
  ok : Bool → ω → Prop

namespace Ward
variable {τ ω : Type} (W : Ward ω)

/-- A dialogue that listens to the player or not, whose tasks are done, are being run or wait. -/
structure Keeps (on : Bool) (d : Dialogue τ Unit ω) : Prop where
  ok : W.ok on d.outside
  listed : d.scheduler.Listed

/-- What a dialogue may become that goes on as it was. -/
structure Leads (on : Bool) (d d' : Dialogue τ Unit ω) : Prop extends W.Keeps on d' where
  grows : d.scheduler.Grows d'.scheduler
  active : d'.session.active = d.session.active

/-- What a dialogue may become by a command: it listens to the player if and only if it is active,
and it is not active when it has ended. -/
structure Obeys (d d' : Dialogue τ Unit ω) (t : Turn) : Prop extends
    W.Keeps d'.session.active d' where
  grows : d.scheduler.Grows d'.scheduler
  off : t = .ended → d'.session.active = false
  readable : ∀ e, t ≠ .unreadable e

/-- What is asked of a wiring. -/
structure Holds (w : Wiring τ ω) : Prop where
  perform : ∀ on c o, W.ok on o → W.ok on (w.stage.perform c o).1
  report : ∀ on e o, W.ok on o → W.ok on (w.stage.report e o)
  publish : ∀ on n d, n.topic.isNovel = true → W.ok on d.outside →
    ∃ o, w.publish n d = { d with outside := o } ∧ W.ok on o
  listen : ∀ o, W.ok false o → (w.listen o).2 = none ∧ W.ok true (w.listen o).1
  unlisten : ∀ on o, W.ok on o → W.ok false (w.unlisten o)
  focusStart : ∀ on o, W.ok on o → W.ok on (w.focusStart o)
  silence : ∀ on o, W.ok on o → (w.stage.perform (.switchTheme "") o).2 = none
  hide : ∀ on o, W.ok on o → (w.stage.perform .hideChoices o).2 = none

variable {W} {on : Bool} {d d' d'' : Dialogue τ Unit ω}

theorem Leads.refl (h : W.Keeps on d) : W.Leads on d d := ⟨h, .refl _, rfl⟩

theorem Leads.trans (h : W.Leads on d d') (h' : W.Leads on d' d'') : W.Leads on d d'' :=
  ⟨h'.toKeeps, h.grows.trans h'.grows, h'.active.trans h.active⟩

/-- What goes on while it listens as it should has obeyed. -/
theorem Leads.obeys {t : Turn} (h : W.Leads on d d') (hon : on = d.session.active)
    (ht : t ≠ .ended) (hr : ∀ e, t ≠ .unreadable e) : W.Obeys d d' t :=
  ⟨by rw [h.active, ← hon]; exact h.toKeeps, h.grows, fun he => absurd he ht, hr⟩

theorem Obeys.after {t : Turn} (h : W.Leads on d d') (h' : W.Obeys d' d'' t) : W.Obeys d d'' t :=
  ⟨h'.toKeeps, h.grows.trans h'.grows, h'.off, h'.readable⟩

end Ward

namespace Dialogue
variable {τ ω : Type} {W : Ward ω} {on : Bool} {d d' : Dialogue τ Unit ω}

theorem AtRest.grows {s s' : Scheduler τ (Activity Unit)} (h : AtRest s) (hg : s.Grows s') :
    AtRest s' := fun id t ht hb => by
  obtain ⟨u, hu, hrun⟩ := (hg.runs id).1 ⟨t, ht, hb⟩
  exact h id u hu hrun

/-! ## Cancelling -/

theorem cancel_leads (st : Stage ω) (id : TaskId) (h : W.Keeps on d) :
    ∃ s, ((host st).cancel id d).1 = { d with scheduler := s } ∧ s.Listed ∧
      d.scheduler.Grows s := by
  unfold Host.cancel
  match ht : ((host st).scheduler d).task? id with
  | none => exact ⟨d.scheduler, rfl, h.listed, .refl _⟩
  | some t =>
    simp only
    split
    · exact ⟨d.scheduler, rfl, h.listed, .refl _⟩
    · -- The task is done then, and whether it is being run stays as it was.
      have hmodify (f : Task τ (Activity Unit) → Task τ (Activity Unit))
          (hdone : ∀ t, (f t).done = true) (hb : (f t).body = .running ↔ t.body = .running) :
          (d.scheduler.modify id f).Listed ∧ d.scheduler.Grows (d.scheduler.modify id f) :=
        ⟨Scheduler.Listed.settle h.listed (fun t => Task.awaits_of_done (hdone t))
          (Or.inr fun t _ => hdone t), .modify f fun u hu => by cases ht.symm.trans hu; exact hb⟩
      split
      · next hb =>
        exact ⟨_, rfl, hmodify _ (fun _ => rfl) (by rw [hb]; exact ⟨nofun, nofun⟩)⟩
      · exact ⟨_, rfl, hmodify _ (fun _ => rfl) Iff.rfl⟩
      · exact ⟨_, rfl, hmodify _ (fun _ => rfl) Iff.rfl⟩

theorem cancelReveal_leads (st : Stage ω) (h : W.Keeps on d) :
    ∃ s, d.cancelReveal st = { d with scheduler := s, reveal := none } ∧ s.Listed ∧
      d.scheduler.Grows s := by
  unfold cancelReveal
  match hr : d.reveal with
  | none => exact ⟨d.scheduler, by simp only; rw [← hr], h.listed, .refl _⟩
  | some id =>
    obtain ⟨s, hs, hlisted, hgrows⟩ := cancel_leads st id h
    exact ⟨s, by simp only [hs], hlisted, hgrows⟩

theorem cancelFocus_leads (st : Stage ω) (h : W.Keeps on d) :
    ∃ s, d.cancelFocus st = { d with scheduler := s, focus := none } ∧ s.Listed ∧
      d.scheduler.Grows s := by
  unfold cancelFocus
  match hr : d.focus with
  | none => exact ⟨d.scheduler, by simp only; rw [← hr], h.listed, .refl _⟩
  | some id =>
    obtain ⟨s, hs, hlisted, hgrows⟩ := cancel_leads st id h
    exact ⟨s, by simp only [hs], hlisted, hgrows⟩

theorem cancelBoth_leads (st : Stage ω) (h : W.Keeps on d) :
    ∃ s, (d.cancelReveal st).cancelFocus st =
        { d with scheduler := s, reveal := none, focus := none } ∧ s.Listed ∧
      d.scheduler.Grows s := by
  obtain ⟨s, hs, hlisted, hgrows⟩ := cancelReveal_leads st h
  obtain ⟨s', hs', hlisted', hgrows'⟩ := cancelFocus_leads st
    (d := { d with scheduler := s, reveal := none }) ⟨h.ok, hlisted⟩
  exact ⟨s', by rw [hs, hs'], hlisted', hgrows.trans hgrows'⟩

/-! ## Running -/

section
variable [Clock τ] (st : Stage ω) (hst : ∀ on e o, W.ok on o → W.ok on (st.report e o))
include hst

/-- At the end of a run the task is done or waits. -/
theorem settle_keeps (id : TaskId) (now : τ) (tick : Nat) (o : Outcome τ (Activity Unit))
    (h : W.ok on d.outside) :
    ∃ f out, ((host st).settle id now tick o d).1 =
        { d with scheduler := d.scheduler.modify id f, outside := out } ∧ W.ok on out ∧
      (∀ t, (f t).Awaits) ∧ ∀ t, (f t).body ≠ .running := by
  have hfinish (t : Task τ (Activity Unit)) : t.finish.Awaits := Task.awaits_of_done rfl
  cases o with
  | finish => exact ⟨Task.finish, d.outside, rfl, h, hfinish, Task.finish_ne_running⟩
  | fail => exact ⟨Task.finish, _, rfl, hst on _ _ h, hfinish, Task.finish_ne_running⟩
  | suspend r rest =>
    have hleft : ∃ f out, (host st).modify
          (·.modify id fun t => { t with body := .suspended rest }) d =
          { d with scheduler := d.scheduler.modify id f, outside := out } ∧ W.ok on out ∧
        (∀ t, (f t).Awaits) ∧ ∀ t, (f t).body ≠ .running :=
      ⟨_, d.outside, rfl, h, fun t => Task.awaits_of_suspended rfl, fun t => nofun⟩
    unfold Host.settle Host.suspend
    simp only
    split
    · exact hleft
    · match r.wakeTime now with
      | .error e => exact hleft
      | .ok wakeTime =>
        refine ⟨Task.pause rest wakeTime (r.wakeTick tick), d.outside, ?_, h,
          fun t => Task.awaits_of_suspended rfl, Task.pause_ne_running _ _ _⟩
        exact congrArg (fun s => ({ d with scheduler := s } : Dialogue τ Unit ω))
          (Scheduler.modify_pause d.scheduler id rest wakeTime (r.wakeTick tick))

/-- A task that is started is run once, and is done then or waits. -/
theorem start_leads (name : Json)
    (run : Dialogue τ Unit ω → Dialogue τ Unit ω × Outcome τ (Activity Unit)) (h : W.Keeps on d)
    (hrun : ∀ d₁, W.Keeps on d₁ → W.Leads on d₁ (run d₁).1) :
    W.Leads on d ((host st).start name run d).1.1 := by
  have hran := hrun { d with scheduler := d.scheduler.enrol name } ⟨h.ok, h.listed.enrol name⟩
  unfold Host.start
  rw [show (host st).modify (fun c => { c with
    tasks := c.tasks ++ [{ name, body := .running, wakeTime := c.time }] }) d =
      { d with scheduler := d.scheduler.enrol name } from rfl]
  simp only
  generalize run { d with scheduler := d.scheduler.enrol name } = r at hran ⊢
  obtain ⟨d₂, o⟩ := r
  obtain ⟨f, out, hsettle, hok, hawaits, hbody⟩ := settle_keeps st hst d.scheduler.tasks.length
    d.scheduler.time d.scheduler.tick o hran.ok
  -- The task is still being run when its run ends, whatever was done meanwhile.
  obtain ⟨t, ht, -⟩ := (hran.grows.runs d.scheduler.tasks.length).2
    ⟨_, Scheduler.task?_enrol_new d.scheduler name, rfl⟩
  have hgrows := Scheduler.Grows.settleNew hran.grows hbody
  have hsettled : ((d₂.scheduler.modify d.scheduler.tasks.length f).isDone
      d.scheduler.tasks.length = true) →
        (d₂.scheduler.modify d.scheduler.tasks.length f).Listed := fun hdone =>
    Scheduler.Listed.settle hran.listed hawaits (Or.inr fun u hu => by
      simpa [Scheduler.isDone, Scheduler.task?_modify_self, hu] using hdone)
  simp only [show ((host st).scheduler d) = d.scheduler from rfl]
  generalize (host st).settle d.scheduler.tasks.length d.scheduler.time d.scheduler.tick o d₂ = r
    at hsettle ⊢
  obtain ⟨d₃, err⟩ := r
  cases hsettle
  cases err with
  | some e =>
    refine ⟨⟨hok, ?_⟩, ?_, hran.active⟩
    · show ((d₂.scheduler.modify _ f).modify _ _).Listed
      rw [Scheduler.modify, Scheduler.modify, List.modify_modify_eq]
      exact Scheduler.Listed.settle hran.listed (fun t => Task.awaits_of_done rfl)
        (Or.inr fun _ _ => rfl)
    · exact hgrows.trans (.modify _ fun _ _ => Iff.rfl)
  | none =>
    simp only
    split
    · next hdone => exact ⟨⟨hok, hsettled hdone⟩, hgrows, hran.active⟩
    · refine ⟨⟨hok, ?_⟩, hgrows.enlist (Nat.le_refl _), hran.active⟩
      refine hran.listed.settleNew ht (hran.grows.toWidens.not_mem_live h.listed) fun hd => ?_
      obtain ⟨rest, hl⟩ := hawaits t hd
      exact ⟨rest, hl, trivial⟩

/-- A task that is resumed is done afterwards or waits again. -/
theorem resume_warded
    (run : Activity Unit → Dialogue τ Unit ω → Dialogue τ Unit ω × Outcome τ (Activity Unit))
    (hrun : ∀ a d₁, W.Keeps on d₁ → W.Leads on d₁ (run a d₁).1) (h : W.Keeps on d)
    (hrest : AtRest d.scheduler) {id : TaskId} {t : Task τ (Activity Unit)}
    (ht : d.scheduler.task? id = some t) (hd : t.done = false) :
    W.Keeps on ((host st).resume run id d).1 ∧ AtRest ((host st).resume run id d).1.scheduler ∧
      ((host st).resume run id d).1.session.active = d.session.active := by
  obtain hb | ⟨⟨rest, hl, -⟩, hlive⟩ := h.listed.listed id t ht hd
  · exact absurd hb (hrest id t ht)
  obtain ⟨hb, -⟩ := Task.left?_eq_some.1 hl
  have hran := hrun rest { d with scheduler := awaken id d.scheduler }
    ⟨h.ok, orderly_awaken h.listed id⟩
  have hresume : (host st).resume run id d =
      (host st).settle id t.wakeTime d.scheduler.tick
        (run rest { d with scheduler := awaken id d.scheduler }).2
        (run rest { d with scheduler := awaken id d.scheduler }).1 := by
    have ht' : ((host st).scheduler d).task? id = some t := ht
    unfold Host.resume
    simp only [ht', hb]
    rfl
  rw [hresume]
  generalize run rest { d with scheduler := awaken id d.scheduler } = r at hran ⊢
  obtain ⟨f, out, hsettle, hok, hawaits, hbody⟩ :=
    settle_keeps st hst id t.wakeTime d.scheduler.tick r.2 hran.ok
  rw [hsettle]
  refine ⟨⟨hok, Scheduler.Listed.settle hran.listed hawaits (Or.inl (hran.grows.mem_live hlive))⟩,
    fun j u hu hru => ?_, hran.active⟩
  obtain ⟨v, hv, hrv⟩ := (Scheduler.runs_modify r.1.scheduler id j f).1 ⟨u, hu, hru⟩
  split at hrv
  · exact hbody v hrv
  · next hne =>
    obtain ⟨x, hx, hrx⟩ := (hran.grows.runs j).1 ⟨v, hv, hrv⟩
    have hx' : d.scheduler.task? j = some x :=
      (Scheduler.task?_modify_of_ne _ _ (Ne.symm hne)).symm.trans hx
    exact hrest j x hx' hrx

end

/-! ## Pieces of commands -/

section
variable {w : Wiring τ ω} (hw : W.Holds w)
include hw

theorem perform_leads (c : Call) (h : W.Keeps on d) : W.Leads on d (d.perform w.stage c).1 :=
  ⟨⟨hw.perform on c _ h.ok, h.listed⟩, .refl _, rfl⟩

theorem report_leads (e : Log.Entry) (h : W.Keeps on d) : W.Leads on d (d.report w.stage e) :=
  ⟨⟨hw.report on e _ h.ok, h.listed⟩, .refl _, rfl⟩

theorem reportAll_leads (es : List Log.Entry) (h : W.Keeps on d) :
    W.Leads on d (d.reportAll w.stage es) := by
  induction es generalizing d with
  | nil => exact .refl h
  | cons e es ih =>
    have hreport := report_leads hw e h
    exact hreport.trans (ih hreport.toKeeps)

theorem publish_leads {n : Notice} (hn : n.topic.isNovel = true) (h : W.Keeps on d) :
    W.Leads on d (w.publish n d) := by
  obtain ⟨o, he, hok⟩ := hw.publish on n d hn h.ok
  rw [he]
  exact ⟨⟨hok, h.listed⟩, .refl _, rfl⟩

/-- Tags are carried out one after the other, as far as that goes. -/
theorem applyAll_ok (tags : List String) {o : ω} (h : W.ok on o) :
    W.ok on (Tag.applyAll w.stage tags o).1.1 := by
  induction tags generalizing o with
  | nil => exact h
  | cons raw tags ih =>
    unfold Tag.applyAll
    cases Tag.parse raw with
    | error e => exact ih (hw.report on _ _ h)
    | ok directive =>
      have happly : W.ok on (directive.apply w.stage o).1 := by
        cases directive with
        | unknown key value => exact hw.report on _ _ h
        | speaker | expression | splash | playSound | stopSound | switchTheme =>
          exact hw.perform on _ _ h
      simp only
      generalize directive.apply w.stage o = r at happly ⊢
      obtain ⟨o', err⟩ := r
      cases err with
      | some e => exact happly
      | none => exact ih happly

omit hw in
/-- The session may be changed that does not say whether the dialogue is active. -/
theorem withSession_leads {f : Session → Session} (hf : (f d.session).active = d.session.active)
    (h : W.Keeps on d) : W.Leads on d (d.withSession f) :=
  ⟨⟨h.ok, h.listed⟩, .refl _, hf⟩

theorem takeChoices_leads (h : W.Keeps on d) : W.Leads on d (d.takeChoices w.stage).1 := by
  have hdrop : W.Leads on d (d.dropChoices w.stage d.storyChoices).1 := by
    unfold dropChoices
    dsimp only
    split
    · exact .refl h
    · exact report_leads hw _ h
  unfold takeChoices
  dsimp only
  split
  · exact .refl h
  · next tooMany _ =>
    have hkept : W.Leads on d (if tooMany then d.dropChoices w.stage d.storyChoices
        else (d, .ok d.storyChoices)).1 := by
      split
      · exact hdrop
      · exact .refl h
    split
    · exact hkept
    · exact hkept.trans ⟨⟨hkept.ok, hkept.listed⟩, .refl _, rfl⟩

/-- A line that is complete gives up its task. -/
theorem endReveal_leads (total : Nat) (h : W.Keeps on d) :
    W.Leads on d (d.endReveal w.manner total) :=
  ⟨⟨hw.report on _ _ h.ok, h.listed⟩, .refl _, rfl⟩

theorem revealNext_leads (h : W.Keeps on d) : W.Leads on d (d.revealNext w.manner).1 := by
  unfold revealNext
  have hcount := withSession_leads (f := fun s => { s with revealed := s.revealed + 1 }) rfl h
  exact Attempt.andThen_keeps (hcount.trans (perform_leads hw _ hcount.toKeeps))
    fun d' h' => h'.trans (perform_leads hw _ h'.toKeeps)

theorem revealRest_leads (total : Nat) (h : W.Keeps on d) :
    W.Leads on d (d.revealRest w.manner total).1 := by
  unfold revealRest
  split
  · have hcount := withSession_leads
      (f := fun s => { s with revealed := total, skip := false }) rfl h
    exact hcount.trans (perform_leads hw _ hcount.toKeeps)
  · exact .refl h

variable [Clock τ]

theorem startHandover_leads (name : String) (last : Activity Unit) (h : W.Keeps on d) :
    W.Leads on d (d.startHandover w.stage name last).1.1 :=
  start_leads w.stage hw.report (.str name)
    (fun d => runTo (.suspend .nextTick last) (d.perform w.stage .clearFocus)) h fun d₁ h₁ => by
      rw [runTo_fst]
      exact perform_leads hw _ h₁

theorem startFocus_leads (h : W.Keeps on d) : W.Leads on d (d.startFocus w).1 :=
  Attempt.andThen_keeps (startHandover_leads hw "focus_choice" .focusChoice h) fun _ h' =>
    ⟨⟨h'.ok, h'.listed⟩, h'.grows, h'.active⟩

theorem presentChoices_leads (h : W.Keeps on d) : W.Leads on d (d.presentChoices w).1 :=
  Attempt.andThen_keeps (takeChoices_leads hw h) fun d' h' => by
    dsimp only
    split
    · exact h'.trans ⟨⟨h'.ok, h'.listed⟩, .refl _, rfl⟩
    · have hphase := withSession_leads (f := fun s => { s with phase := .awaitingChoice }) rfl
        h'.toKeeps
      refine Attempt.andThen_keeps (h'.trans (hphase.trans (perform_leads hw _ hphase.toKeeps)))
        fun d'' h'' => ?_
      have htold := publish_leads hw (n := .choicesShown d'.session.pending) rfl h''.toKeeps
      exact h''.trans (htold.trans (startFocus_leads hw htold.toKeeps))

theorem lineRevealed_leads (h : W.Keeps on d) : W.Leads on d (d.lineRevealed w).1 := by
  have htold := publish_leads hw (n := .lineRevealed d.session.line) rfl h
  exact htold.trans (presentChoices_leads hw htold.toKeeps)

theorem runReveal_leads (text : String) (h : W.Keeps on d) :
    W.Leads on d (d.runReveal w.manner text () (lineRevealed w)).1 := by
  unfold runReveal
  dsimp only
  split
  · rw [runTo_fst]
    exact revealNext_leads hw h
  · rw [runTo_fst]
    refine Attempt.andThen_keeps (revealRest_leads hw _ h) fun d' h' => ?_
    have hend := endReveal_leads hw text.length h'.toKeeps
    exact h'.trans (hend.trans (lineRevealed_leads hw hend.toKeeps))

theorem startReveal_leads (text : String) (h : W.Keeps on d) :
    W.Leads on d (d.startReveal w.manner text () (lineRevealed w)).1 := by
  obtain ⟨s, hs, hlisted, hgrows⟩ := cancelReveal_leads w.stage h
  unfold startReveal
  dsimp only
  rw [show d.cancelReveal w.manner.stage = _ from hs]
  have hopen : W.Leads on d ({ d with scheduler := s, reveal := none }.withSession fun s =>
      { s with revealing := true, revealed := 0 }) := ⟨⟨h.ok, hlisted⟩, hgrows, rfl⟩
  refine Attempt.andThen_keeps (Attempt.andThen_keeps (hopen.trans (perform_leads hw _
    hopen.toKeeps)) fun d' h' => h'.trans (perform_leads hw _ h'.toKeeps)) fun d' h' => ?_
  refine Attempt.andThen_keeps (h'.trans (start_leads w.stage hw.report _ _ h'.toKeeps
    fun d₁ h₁ => runReveal_leads hw text h₁)) fun d'' h'' => ?_
  exact ⟨⟨h''.ok, h''.listed⟩, h''.grows, h''.active⟩

theorem showLine_leads (line : Story.Line) (h : W.Keeps on d) :
    W.Leads on d (d.showLine w line).1 := by
  have hline := withSession_leads (f := Session.beginLine line.text) rfl h
  have htold := publish_leads hw (n := .lineStarted line.text line.tags) rfl hline.toKeeps
  have hbegun := hline.trans htold
  refine Attempt.andThen_keeps (P := W.Leads on d) ?_ fun d' h' =>
    h'.trans (startReveal_leads hw line.text h'.toKeeps)
  exact hbegun.trans ⟨⟨applyAll_ok hw line.tags hbegun.ok, hbegun.listed⟩, .refl _, rfl⟩

/-- One run of a task. -/
theorem run_leads (a : Activity Unit) (h : W.Keeps on d) : W.Leads on d (run w a d).1 := by
  cases a with
  | reveal text after => exact runReveal_leads hw text h
  | focusChoice =>
    show W.Leads on d (runTo .finish (d.perform w.stage (.focus 0))).1
    rw [runTo_fst]
    exact perform_leads hw _ h
  | focusStart => exact ⟨⟨hw.focusStart on _ h.ok, h.listed⟩, .refl _, rfl⟩

/-! ## Commands -/

omit hw [Clock τ] in
/-- What went on is done, or broke off. -/
theorem turn_obeys {r : Attempt (Dialogue τ Unit ω) Fault} (h : W.Leads d.session.active d r.1) :
    W.Obeys d (r.turn (·, .done)).1 (r.turn (·, .done)).2 := by
  obtain ⟨d', e⟩ := r
  cases e with
  | none => exact h.obeys rfl nofun nofun
  | some e => exact h.obeys rfl nofun nofun

omit hw [Clock τ] in
theorem done_obeys (h : W.Keeps d.session.active d) : W.Obeys d d .done :=
  (Ward.Leads.refl h).obeys rfl nofun nofun

omit [Clock τ] in
/-- A dialogue that ends does not listen any more. -/
theorem finish_obeys (h : W.Keeps d.session.active d) :
    W.Obeys d (d.finish w).1 (d.finish w).2 := by
  unfold finish
  split
  · exact done_obeys h
  · obtain ⟨s, hs, hlisted, hgrows⟩ := cancelBoth_leads (d := d.withOutside w.unlisten) w.stage
      ⟨hw.unlisten _ _ h.ok, h.listed⟩
    dsimp only
    rw [hs]
    have hoff : W.ok false (w.unlisten d.outside) := hw.unlisten _ _ h.ok
    have hhide : (Dialogue.perform w.stage .hideChoices { d.withOutside w.unlisten with
        scheduler := s, reveal := none, focus := none } : Attempt (Dialogue τ Unit ω) Fault) =
        ({ d with
          scheduler := s, reveal := none, focus := none
          outside := (w.stage.perform .hideChoices (w.unlisten d.outside)).1 }, none) :=
      Prod.ext rfl (hw.hide _ _ hoff)
    rw [hhide]
    let d₁ : Dialogue τ Unit ω := { d with
      session := d.session.finish, scheduler := s, reveal := none, focus := none
      outside := (w.stage.perform .hideChoices (w.unlisten d.outside)).1 }
    have htold := publish_leads hw (d := d₁) (n := .plain .dialogueEnded) rfl
      ⟨hw.perform false _ _ hoff, hlisted⟩
    have hreport := htold.trans (report_leads hw (Log.info "Dialogue ended") htold.toKeeps)
    have hact : ((w.publish (.plain .dialogueEnded) d₁).report w.stage
        (Log.info "Dialogue ended")).session.active = false := hreport.active
    refine ⟨?_, hgrows.trans hreport.grows, fun _ => hact, nofun⟩
    show W.Keeps ((w.publish (.plain .dialogueEnded) d₁).report w.stage
      (Log.info "Dialogue ended")).session.active _
    rw [hact]
    exact hreport.toKeeps

theorem continueStory_obeys (h : W.Keeps d.session.active d) :
    W.Obeys d (d.continueStory w).1 (d.continueStory w).2 := by
  unfold continueStory
  split
  · exact done_obeys h
  · next story _ =>
    split
    · exact done_obeys h
    split
    · split
      · exact finish_obeys hw h
      split
      · obtain ⟨s, hs, hlisted, hgrows⟩ := cancelFocus_leads w.stage h
        rw [hs]
        have hfree : W.Leads d.session.active d { d with scheduler := s, focus := none } :=
          ⟨⟨h.ok, hlisted⟩, hgrows, rfl⟩
        exact turn_obeys (hfree.trans (presentChoices_leads hw hfree.toKeeps))
      · exact done_obeys h
    · obtain ⟨s, hs, hlisted, hgrows⟩ := cancelBoth_leads w.stage h
      rw [hs]
      have hfree : W.Leads d.session.active d
          { d with scheduler := s, reveal := none, focus := none } :=
        ⟨⟨h.ok, hlisted⟩, hgrows, rfl⟩
      have hhide := hfree.trans (perform_leads hw .hideChoices hfree.toKeeps)
      generalize Dialogue.perform w.stage .hideChoices
        { d with scheduler := s, reveal := none, focus := none } = r at hhide ⊢
      obtain ⟨d', e⟩ := r
      cases e with
      | some e => exact hhide.obeys rfl nofun nofun
      | none =>
        unfold Attempt.turn
        dsimp only
        split
        · exact hhide.obeys rfl nofun nofun
        · next line p log _ =>
          have hread := reportAll_leads hw log (d := { d' with story := some p })
            ⟨hhide.ok, hhide.listed⟩
          have hshown := hread.trans (showLine_leads hw line hread.toKeeps)
          exact turn_obeys ⟨hshown.toKeeps, hhide.grows.trans hshown.grows,
            hshown.active.trans hhide.active⟩

theorem advance_obeys (h : W.Keeps d.session.active d) :
    W.Obeys d (d.advance w).1 (d.advance w).2 := by
  unfold advance
  split
  · exact done_obeys h
  split
  · exact (withSession_leads (f := fun s => { s with skip := true }) rfl h).obeys rfl nofun nofun
  split
  · exact continueStory_obeys hw h
  · exact done_obeys h

theorem take_obeys (story : Story.Player) (choice : Choice) (h : W.Keeps d.session.active d) :
    W.Obeys d (d.take w story choice).1 (d.take w story choice).2 := by
  unfold take
  split
  · exact (Ward.Leads.refl h).obeys rfl nofun nofun
  · next p log _ =>
    have hread := reportAll_leads hw log (d := { d with story := some p }) ⟨h.ok, h.listed⟩
    have hmade := withSession_leads (f := fun s => { s with pending := [] }) rfl hread.toKeeps
    have htold := hmade.trans (publish_leads hw (n := .choiceMade choice) rfl hmade.toKeeps)
    have htotal := hread.trans htold
    have hgoes := continueStory_obeys hw (by rw [htotal.active]; exact htotal.toKeeps)
    exact ⟨hgoes.toKeeps, htotal.grows.trans hgoes.grows, hgoes.off, hgoes.readable⟩

omit [Clock τ] in
theorem reportChoice_obeys (entry : String → Log.Entry) (index : Json)
    (h : W.Keeps d.session.active d) :
    W.Obeys d (d.reportChoice w.stage entry index).1 (d.reportChoice w.stage entry index).2 := by
  unfold reportChoice
  split
  · exact (Ward.Leads.refl h).obeys rfl nofun nofun
  · exact (report_leads hw _ h).obeys rfl nofun nofun

theorem choose_obeys (index : Json) (h : W.Keeps d.session.active d) :
    W.Obeys d (d.choose w index).1 (d.choose w index).2 := by
  have hstays : ∀ t, t ≠ .ended → (∀ e, t ≠ .unreadable e) → W.Obeys d d t := fun t ht hr =>
    (Ward.Leads.refl h).obeys rfl ht hr
  unfold choose
  split
  · exact done_obeys h
  · next story _ =>
    dsimp only
    split
    · exact done_obeys h
    split
    · exact reportChoice_obeys hw _ _ h
    split
    · exact hstays _ nofun nofun
    split
    · split
      · exact hstays _ nofun nofun
      · next i _ =>
        match d.session.pending[i.toNat]? with
        | none => exact done_obeys h
        | some choice => exact take_obeys hw story choice h
    · exact reportChoice_obeys hw _ _ h

/-- A dialogue begins to listen when a story begins; a text that is no story changes nothing. -/
theorem begin_obeys (content : Json) (h : W.Keeps false d) (hoff : d.session.active = false) :
    (∃ e, d.begin w content = (d, .unreadable e)) ∨
      W.Obeys d (d.begin w content).1 (d.begin w content).2 := by
  unfold begin
  rw [if_neg (by rw [hoff]; exact Bool.false_ne_true)]
  split
  · next e _ => exact Or.inl ⟨e, rfl⟩
  · next graph _ =>
    refine Or.inr ?_
    dsimp only
    have hread := reportAll_leads hw (Story.Player.start graph).2
      (d := { d with story := some (Story.Player.start graph).1 }) ⟨h.ok, h.listed⟩
    generalize Dialogue.reportAll w.stage (Story.Player.start graph).2
      { d with story := some (Story.Player.start graph).1 } = d₁ at hread ⊢
    -- Between the switch of the theme and the first line it begins to listen.
    let d₂ := d₁.withSession fun s => { s with active := true, phase := .idle }
    have hquiet : d₂.perform w.stage (.switchTheme "") =
        ({ d₂ with outside := (w.stage.perform (.switchTheme "") d₁.outside).1 }, none) :=
      Prod.ext rfl (hw.silence false _ hread.ok)
    obtain ⟨hheard, hon⟩ := hw.listen _ (hw.perform false (.switchTheme "") _ hread.ok)
    let d₃ : Dialogue τ Unit ω := { d₂ with
      outside := (w.listen (w.stage.perform (.switchTheme "") d₁.outside).1).1 }
    have hlisten : (d₂.perform w.stage (.switchTheme "")).andThen (attempt w.listen) =
        (d₃, none) := by
      rw [hquiet]
      exact Prod.ext rfl hheard
    have hkeeps : W.Keeps true d₃ := ⟨hon, hread.listed⟩
    have htold := publish_leads hw (n := .plain .dialogueStarted) rfl hkeeps
    have hreport := htold.trans (report_leads hw (Log.info "Dialogue started") htold.toKeeps)
    have hgoes := continueStory_obeys hw (by
      rw [show _ = true from hreport.active]
      exact hreport.toKeeps)
    rw [show Attempt.andThen (Dialogue.perform w.stage (.switchTheme "") (withSession _ d₁))
      (attempt w.listen) = (d₃, none) from hlisten]
    exact ⟨hgoes.toKeeps, (hread.grows.trans hreport.grows).trans hgoes.grows, hgoes.off,
      hgoes.readable⟩

/-! ## The start and the end -/

/-- To hand the focus to the start button never breaks off. -/
theorem startStartFocus_leads (h : W.Keeps on d) : W.Leads on d (d.startStartFocus w).1 :=
  startHandover_leads hw "focus_start" .focusStart h

omit hw [Clock τ] in
/-- A dialogue that is broken off neither runs nor listens. -/
theorem shutdown_warded (w : Wiring τ ω) (h : d.scheduler.Listed) :
    ∃ s, d.shutdown w = ⟨d.session.reset, d.story, s, none, none, w.unlisten d.outside⟩ ∧
      s.Listed ∧ d.scheduler.Grows s := by
  -- Nothing is asked of the surroundings here.
  have hk : (⟨fun _ _ => True⟩ : Ward ω).Keeps false (d.withOutside w.unlisten) := ⟨trivial, h⟩
  obtain ⟨s, hs, hlisted, hgrows⟩ := cancelBoth_leads w.stage hk
  exact ⟨s, by unfold shutdown; rw [hs]; rfl, hlisted, hgrows⟩

/-! ## Updates -/

/-- Time passes for a dialogue. -/
theorem update_warded (h : W.Keeps on d) (hrest : AtRest d.scheduler) (dt : τ) :
    W.Keeps on (d.update w dt).1 ∧ AtRest (d.update w dt).1.scheduler ∧
      (d.update w dt).1.session.active = d.session.active :=
  Host.update_keeps (host w.stage) (run w)
    (J := fun c => W.Keeps on c ∧ AtRest c.scheduler ∧ c.session.active = d.session.active)
    Activity.rounds dt ⟨h, hrest, rfl⟩
    (fun time _ => ⟨⟨h.ok, h.listed.nodup, h.listed.bound, h.listed.listed⟩, hrest, rfl⟩)
    (fun c id t hc ht hd _ => by
      obtain ⟨hkeeps, hrest', hact⟩ := resume_warded w.stage hw.report (run w)
        (fun a d₁ h₁ => run_leads hw a h₁) hc.1 hc.2.1 ht hd
      exact ⟨hkeeps, hrest', hact.trans hc.2.2⟩)
    fun c hc => ⟨⟨hc.1.ok, hc.1.listed.sweep⟩, hc.2⟩

end

end Dialogue
end VisualNovel
