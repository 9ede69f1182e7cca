import VisualNovel.Proofs.Dialogue.Chamber
/-!
# Lines in a chamber

A line that was fetched is revealed, at once if it is empty, and then the story's choices are
offered (`showLine_spec`). When the run of a task completes a line, the dialogue has come to a pause
(`Paused`): choices are on offer, or it waits to be advanced. Only a tag that shows an image may
break a line off, before any of it is shown.
-/
namespace VisualNovel.Dialogue
open Story (Player)

variable {τ ω : Type} {S : Chamber τ ω} {d d' : Dialogue τ Unit ω}

/-- What a command in a chamber leaves behind. -/
structure Lands (S : Chamber τ ω) (d d' : Dialogue τ Unit ω) : Prop where
  kept : S.Kept d'
  follows : d.scheduler.Follows d'.scheduler

theorem Lands.after {d₁ : Dialogue τ Unit ω} (h : Lands S d₁ d')
    (hf : d.scheduler.Follows d₁.scheduler) : Lands S d d' := ⟨h.kept, hf.trans h.follows⟩

theorem Lands.same (h : S.Kept d) : Lands S d d := ⟨h, .refl _⟩

/-- No line is under way: the choices of the story are on offer, or the dialogue waits to be
advanced. Before that `ns` was published. -/
structure Paused (S : Chamber τ ω) (p : Player) (ns : List Notice) (d : Dialogue τ Unit ω) :
    Prop where
  story : d.story = some p
  active : d.session.active = true
  revealing : d.session.revealing = false
  skip : d.session.skip = false
  pending : d.session.pending = p.choices.take S.slots
  phase : d.session.pending = [] ∧ d.session.phase = .awaitingAdvance ∧ S.news d = ns ∨
    d.session.pending ≠ [] ∧ d.session.phase = .awaitingChoice ∧
      S.news d = ns ++ [.choicesShown d.session.pending]

/-- The dialogue has just come to a pause, and no choice has the focus yet. -/
structure Pauses (S : Chamber τ ω) (p : Player) (ns : List Notice) (d : Dialogue τ Unit ω) :
    Prop extends Paused S p ns d where
  dark : (S.prospect d.outside).Dark

/-- The line and how much of it is shown are as before. -/
def SameLine (d d' : Dialogue τ Unit ω) : Prop :=
  d'.session.line = d.session.line ∧ d'.session.revealed = d.session.revealed

/-! ## Choices -/

variable [Clock τ] {w : Wiring τ ω} {p : Player}

theorem takeChoices_spec (hw : S.Fits w) (ho : S.ok d.outside) :
    ∃ o, d.takeChoices w.stage =
        ({ d with
          session := { d.session with pending := d.storyChoices.take S.slots }
          outside := o }, none) ∧ S.Keeps id d.outside o := by
  unfold takeChoices
  simp only [hw.slots _ ho, Slots.areFewerThan]
  by_cases h : (S.slots : Int) < d.storyChoices.length
  · refine ⟨_, ?_, hw.report (tooManyChoices d.storyChoices.length S.slots) d.outside ho⟩
    simp [h, dropChoices, hw.slots _ ho, Slots.whole, Slots.cut, firstSlots, withSession, report,
      withOutside]
  · refine ⟨d.outside, ?_, ho, rfl⟩
    have hall : d.storyChoices.take S.slots = d.storyChoices := List.take_of_length_le (by omega)
    simp [h, withSession, hall]

/-- A task is started that hands the focus over at the next tick; until then nothing has it. -/
theorem startFocus_spec (hw : S.Fits w) (h : S.Sane d)
    (hfree : Free d.scheduler d.reveal d.focus) :
    ∃ s o i t, d.startFocus w =
        ({ d with scheduler := s, focus := some i, outside := o }, none) ∧
      s.Orderly (S.Due d.scheduler) ∧ d.scheduler.Follows s ∧
      S.Keeps (·.after .clearFocus) d.outside o ∧ Focusing s d.reveal (some i) i t := by
  obtain ⟨o, ho, hk⟩ := hw.perform_eq
    (d := { d with scheduler := d.scheduler.enrol (.str "focus_choice") }) h.ok .clearFocus
    trivial rfl
  obtain ⟨s, t, hs, hos, hf, hown, hb, honly, hrev, -⟩ := shelve_new h.orderly hfree
    (.str "focus_choice") .focusChoice rfl d.scheduler.time (d.scheduler.tick + 1)
    fun t ht hk _ => by
      unfold Chamber.Due
      rw [ht, hk]
      exact hw.runs.next _ _ h.time
  refine ⟨s, o, d.scheduler.tasks.length, t, ?_, hos, hf, hk, rfl, hown, hb, honly, hrev⟩
  have hstart := host_start_suspend w.stage (d := d) (.str "focus_choice")
    (fun d => runTo (.suspend .nextTick .focusChoice) (d.perform w.stage .clearFocus))
    (by rw [ho]; rfl) (.refl _) rfl
  unfold startFocus startHandover
  rw [hstart]
  show (({ d with outside := o, scheduler := _, focus := _ } : Dialogue τ Unit ω), none) = _
  rw [← hs]
  rfl

/-- The pending choices are shown, and a task is started that focuses the first one. -/
theorem offer_spec (hw : S.Fits w) (h : S.Poised p d)
    (hfree : Free d.scheduler d.reveal d.focus) {o : ω} (ho : S.Keeps id d.outside o)
    (hne : p.choices.take S.slots ≠ []) :
    ∃ d', (({ d with
          session := { d.session with
            pending := p.choices.take S.slots
            phase := .awaitingChoice }
          outside := o } : Dialogue τ Unit ω).perform w.stage
            (.choices (p.choices.take S.slots))).andThen (fun d =>
        (w.publish (.choicesShown (p.choices.take S.slots)) d).startFocus w) = (d', none) ∧
      Lands S d d' ∧ Pauses S p (S.news d) d' ∧ SameLine d d' := by
  obtain ⟨o₁, hshow, hk₁⟩ := hw.perform_eq (d := { d with
      session := { d.session with
        pending := p.choices.take S.slots
        phase := .awaitingChoice }
      outside := o }) ho.1 (.choices (p.choices.take S.slots))
    (List.length_take_le _ _) rfl
  obtain ⟨o₂, hpub, hk₂⟩ := hw.publish (.choicesShown (p.choices.take S.slots)) { d with
      session := { d.session with
        pending := p.choices.take S.slots
        phase := .awaitingChoice }
      outside := o₁ } rfl hk₁.1
  obtain ⟨s, o₃, i, t, hstart, hos, hf, hk₃, hfocus⟩ := startFocus_spec hw (d := { d with
      session := { d.session with
        pending := p.choices.take S.slots
        phase := .awaitingChoice }
      outside := o₂ }) ⟨hk₂.1, h.orderly, h.time, h.revealed⟩ hfree
  have hprospect : S.prospect o₃ = (((S.prospect d.outside).after
      (.choices (p.choices.take S.slots))).told
        (.choicesShown (p.choices.take S.slots))).after .clearFocus :=
    (ho.trans (hk₁.trans (hk₂.trans hk₃))).2
  rw [hshow, Attempt.andThen_none, hpub, hstart]
  have hsane : S.Sane { d with scheduler := s } := h.toSane.follow hos hf
  refine ⟨_, rfl, ⟨⟨⟨hk₃.1, hsane.orderly, hsane.time, h.revealed⟩, ?_, ?_, fun _ => ⟨p, h.story⟩,
    ?_⟩, hf⟩, ⟨⟨h.story, h.active, h.revealing, h.skip, rfl, Or.inr ⟨hne, rfl, ?_⟩⟩, ?_⟩, rfl, rfl⟩
  · rw [show S.prospect _ = _ from hprospect]
    exact Prospect.shows_offer _ _ _
  · rw [show S.prospect _ = _ from hprospect]
    exact h.ears.trans (by rw [h.active]; rfl)
  · refine .offering h.active h.revealing h.skip rfl hne ?_ (Or.inr ⟨i, t, hfocus⟩)
    rw [← h.storyChoices]
    rfl
  · unfold Chamber.news
    rw [show S.prospect _ = _ from hprospect]
    rfl
  · rw [show S.prospect _ = _ from hprospect]
    exact Prospect.dark_clearFocus _

theorem presentChoices_spec (hw : S.Fits w) (h : S.Poised p d)
    (hfree : Free d.scheduler d.reveal d.focus)
    (hblank : p.choices.take S.slots = [] → (S.prospect d.outside).Shows []) :
    ∃ d', d.presentChoices w = (d', none) ∧ Lands S d d' ∧ Pauses S p (S.news d) d' ∧
      SameLine d d' := by
  obtain ⟨o, htake, hk⟩ := takeChoices_spec hw h.ok
  rw [h.storyChoices] at htake
  unfold presentChoices
  rw [htake, Attempt.andThen_none]
  by_cases hnil : p.choices.take S.slots = []
  · have hprospect : S.prospect o = S.prospect d.outside := hk.2
    refine ⟨_, if_pos (by simp [hnil]), ⟨⟨⟨hk.1, h.orderly, h.time, h.revealed⟩, ?_, ?_,
      fun _ => ⟨p, h.story⟩, ?_⟩, .refl _⟩, ⟨⟨h.story, h.active, h.revealing, h.skip, rfl,
      Or.inl ⟨hnil, rfl, congrArg Prospect.news hprospect⟩⟩, ?_⟩, rfl, rfl⟩
    · show (S.prospect o).Shows ((p.choices.take S.slots).map Button.ofChoice)
      rw [hprospect, hnil]
      exact hblank hnil
    · show (S.prospect o).ears = if d.session.active then 1 else 0
      rw [hprospect, h.active]
      exact h.ears
    · refine .waiting h.active h.revealing h.skip hnil (Or.inl ⟨rfl, ?_⟩) hfree
      rw [← hnil, ← h.storyChoices]
      rfl
    · show (S.prospect o).Dark
      rw [hprospect]
      exact (hblank hnil).dark
  · simp only [List.isEmpty_iff, hnil, if_false]
    exact offer_spec hw h hfree hk hnil

/-- A line that is complete is told of, and then the choices are offered. -/
theorem lineRevealed_spec (hw : S.Fits w) (h : S.Poised p d)
    (hfree : Free d.scheduler d.reveal d.focus) (hblank : (S.prospect d.outside).Shows []) :
    ∃ d', d.lineRevealed w = (d', none) ∧ Lands S d d' ∧
      Pauses S p (S.news d ++ [.lineRevealed d.session.line]) d' ∧ SameLine d d' := by
  obtain ⟨o, hpub, hk⟩ := hw.publish (.lineRevealed d.session.line) d rfl h.ok
  have hprospect : S.prospect o = (S.prospect d.outside).told (.lineRevealed d.session.line) := hk.2
  have hblank' : (S.prospect o).Shows [] := by
    rw [hprospect]
    exact hblank
  obtain ⟨d', he, hl, hpaused, hsame⟩ := presentChoices_spec hw (d := { d with outside := o })
    ⟨h.toSane.outside hk.1, h.active, h.revealing, h.skip, h.pending, h.story, h.tasks,
      by rw [hprospect]; exact h.ears, [], Nat.zero_le _, hblank'⟩ hfree fun _ => hblank'
  have hnews : S.news { d with outside := o } = S.news d ++ [.lineRevealed d.session.line] :=
    congrArg Prospect.news hprospect
  rw [hnews] at hpaused
  exact ⟨d', by unfold lineRevealed; rw [hpub]; exact he, hl.after (.refl _), hpaused, hsame⟩

/-! ## A run of the task that reveals a line -/

theorem runReveal_more (hw : S.Fits w) (ho : S.ok d.outside) (text : String)
    (complete : Dialogue τ Unit ω → Attempt (Dialogue τ Unit ω) Fault)
    (hlt : d.session.revealed < text.length) (hs : d.session.skip = false) :
    ∃ o, d.runReveal w.manner text () complete =
        ({ d with
          session := { d.session with revealed := d.session.revealed + 1 }
          outside := o }, .suspend (.wait w.manner.interval) (.reveal text ())) ∧
      S.Keeps id d.outside o := by
  obtain ⟨o, hshow, hk⟩ := hw.perform_same
    (d := d.withSession fun s => { s with revealed := s.revealed + 1 }) ho
    (c := .visible (d.session.revealed + 1)) trivial rfl rfl
  obtain ⟨o', hplay, hk'⟩ := hw.perform_same
    (d := { d.withSession fun s => { s with revealed := s.revealed + 1 } with outside := o }) hk.1
    (c := .play w.manner.sound) hw.sound rfl rfl
  refine ⟨o', ?_, hk.trans hk'⟩
  unfold runReveal revealNext
  rw [if_pos ⟨hlt, hs⟩]
  show runTo _ ((perform w.stage (.visible (d.session.revealed + 1)) _).andThen _) = _
  rw [hshow, Attempt.andThen_none]
  show runTo _ (perform w.stage (.play w.manner.sound) _) = _
  rw [hplay]
  rfl

/-- The rest of a line is shown, if some is left. -/
theorem revealRest_spec (hw : S.Fits w) (ho : S.ok d.outside) {text : String}
    (hline : d.session.line = text) (hlen : d.session.revealed ≤ d.session.line.length) :
    ∃ skip o, d.revealRest w.manner text.length =
        ({ d with session := { d.session with revealed := text.length, skip }, outside := o },
          none) ∧ S.Keeps id d.outside o := by
  unfold revealRest
  split
  · obtain ⟨o, hshow, hk⟩ := hw.perform_same
      (d := d.withSession fun s => { s with revealed := text.length, skip := false }) ho
      (c := .visible text.length) trivial rfl rfl
    exact ⟨false, o, hshow, hk⟩
  · next hge =>
    have hfull : text.length = d.session.revealed := by
      rw [hline] at hlen
      omega
    exact ⟨d.session.skip, d.outside, by rw [hfull], ho, rfl⟩

/-- The line is complete, and the dialogue has come to a pause. -/
structure Completed (S : Chamber τ ω) (p : Player) (ns : List Notice) (text : String)
    (d : Dialogue τ Unit ω) : Prop extends Pauses S p (ns ++ [.lineRevealed text]) d where
  line : d.session.line = text
  revealed : d.session.revealed = text.length

/-- The last run of the task that reveals a line. -/
theorem runReveal_completes (hw : S.Fits w) (h : S.Sane d) (hact : d.session.active = true)
    (hp : d.session.pending = []) (hstory : d.story = some p)
    (hfree : Free d.scheduler none d.focus) (hears : (S.prospect d.outside).ears = 1)
    (hblank : (S.prospect d.outside).Shows []) {text : String} (hline : d.session.line = text)
    (hlast : ¬(d.session.revealed < text.length ∧ d.session.skip = false)) :
    ∃ d', d.runReveal w.manner text () (lineRevealed w) = (d', .finish) ∧ Lands S d d' ∧
      Completed S p (S.news d) text d' := by
  subst hline
  obtain ⟨skip, o, hrest, hk⟩ := revealRest_spec hw h.ok rfl h.revealed
  have hk' := hk.trans (hw.report
    (Log.debug ("Revealed line (" ++ toString d.session.line.length ++ " chars)")) o hk.1)
  have hprospect : S.prospect (w.stage.report (Log.debug ("Revealed line (" ++
      toString d.session.line.length ++ " chars)")) o) = S.prospect d.outside := hk'.2
  have hblank' := hblank
  rw [← hprospect] at hblank'
  obtain ⟨d', he, hl, hpaused, hline, hrev⟩ := lineRevealed_spec hw
    (d := { d with
      session := { d.session with
        revealed := d.session.line.length
        skip := false
        revealing := false }
      reveal := none
      outside := w.stage.report (Log.debug ("Revealed line (" ++
        toString d.session.line.length ++ " chars)")) o })
    ⟨⟨hk'.1, h.orderly, h.time, Nat.le_refl _⟩, hact, rfl, rfl, hp, hstory, Or.inl hfree,
      by rw [hprospect]; exact hears, [], Nat.zero_le _, hblank'⟩ hfree hblank'
  have hnews : S.news d = (S.prospect (w.stage.report (Log.debug ("Revealed line (" ++
      toString d.session.line.length ++ " chars)")) o)).news := by
    rw [hprospect]
    rfl
  refine ⟨d', ?_, hl.after (.refl _), ⟨hnews ▸ hpaused, hline, hrev⟩⟩
  unfold runReveal
  rw [if_neg hlast]
  simp only [hrest, Attempt.andThen_none]
  exact congrArg (runTo .finish) he

/-! ## The start of a reveal -/

/-- What comes of showing a line: it is being revealed, or it was complete at once. -/
inductive Begun (S : Chamber τ ω) (p : Player) (ns : List Notice) (text : String)
    (d : Dialogue τ Unit ω) : Prop where
  | reading (story : d.story = some p) (active : d.session.active = true)
    (revealing : d.session.revealing = true) (skip : d.session.skip = false)
    (line : d.session.line = text) (news : S.news d = ns)
  | completed (h : Completed S p ns text d)

/-- An empty line is complete at once; the task that should reveal it is over when it is noted. -/
theorem reveal_empty (hw : S.Fits w) (h : S.Sane d) (hact : d.session.active = true)
    (hp : d.session.pending = []) (hstory : d.story = some p)
    (hfree : Free d.scheduler none d.focus) (hears : (S.prospect d.outside).ears = 1)
    (hblank : (S.prospect d.outside).Shows []) (hempty : d.session.line.length = 0) :
    ∃ d' i, (host w.stage).start (.str "reveal_line")
        (runReveal w.manner d.session.line () (lineRevealed w)) d = ((d', none), i) ∧
      Lands S d { d' with reveal := some i } ∧
      Completed S p (S.news d) d.session.line { d' with reveal := some i } := by
  obtain ⟨d₂, hrun, hl, hc⟩ := runReveal_completes hw
    (d := { d with scheduler := d.scheduler.enrol (.str "reveal_line") })
    ⟨h.ok, h.orderly.enrol _, h.time, h.revealed⟩ hact hp hstory
    (hfree.alike (alike_enrol _ _)) hears hblank (show d.session.line = d.session.line from rfl)
    (fun hlt => by have := hlt.1; omega)
  -- The line was complete before the task could be noted, so the note is of a task that is over.
  have ht := hl.follows.task?_running (Scheduler.task?_enrol_new d.scheduler _) rfl
  have hkept := hl.kept.reschedule
    (s := d₂.scheduler.modify d.scheduler.tasks.length Task.finish)
    (hl.kept.orderly.finish _) hl.kept.time (alike_finish ht rfl)
  refine ⟨_, _, host_start_finish w.stage _ _ hrun hl.follows,
    ⟨hkept.note hc.revealing (Scheduler.isOver_finish ht), .settleNew hl.follows fun _ => nofun⟩,
    ⟨⟨hc.story, hc.active, hc.revealing, hc.skip, hc.pending, hc.phase⟩, hc.dark⟩, hc.line,
      hc.revealed⟩

/-- The first character of a line is shown, and a task waits that shows the others. -/
theorem reveal_first (hw : S.Fits w) (h : S.Sane d) (hact : d.session.active = true)
    (hphase : d.session.phase = .revealing) (hrev : d.session.revealing = true)
    (hskip : d.session.skip = false) (hp : d.session.pending = []) (hstory : d.story = some p)
    (hfree : Free d.scheduler none d.focus) (hears : (S.prospect d.outside).ears = 1)
    (hblank : (S.prospect d.outside).Shows [])
    (hlt : d.session.revealed < d.session.line.length) :
    ∃ d' i, (host w.stage).start (.str "reveal_line")
        (runReveal w.manner d.session.line () (lineRevealed w)) d = ((d', none), i) ∧
      Lands S d { d' with reveal := some i } ∧
      Begun S p (S.news d) d.session.line { d' with reveal := some i } := by
  obtain ⟨o, hrun, hk⟩ := runReveal_more hw
    (d := { d with scheduler := d.scheduler.enrol (.str "reveal_line") }) h.ok d.session.line
    (lineRevealed w) hlt hskip
  obtain ⟨wakeTime, hwake⟩ := hw.runs.wait _ h.time
  obtain ⟨s, t, hs, hos, hf, hown, hb, honly, -, hfocus⟩ := shelve_new h.orderly hfree
    (.str "reveal_line") (.reveal d.session.line ()) rfl wakeTime
    ((Request.wait w.manner.interval).wakeTick d.scheduler.tick)
    fun t ht hk _ => by
      unfold Chamber.Due
      rw [ht, hk]
      exact hw.runs.first _ _ _ h.time hwake
  refine ⟨_, _, host_start_suspend w.stage _ _ hrun (.refl _) hwake, ?_⟩
  have hprospect : S.prospect o = S.prospect d.outside := hk.2
  have hsane : S.Sane { d with scheduler := s } := h.follow hos hf
  rw [show Scheduler.shelve _ _ _ _ _ = s from hs]
  refine ⟨⟨⟨⟨hk.1, hsane.orderly, hsane.time, hlt⟩, ?_, ?_, fun _ => ⟨p, hstory⟩,
    .reading hact hrev hphase hp ⟨_, t, rfl, hown, hb, honly, hfocus⟩⟩, hf⟩,
    .reading hstory hact hrev hskip rfl (congrArg Prospect.news hprospect)⟩
  · show (S.prospect o).Shows (d.session.pending.map Button.ofChoice)
    rw [hprospect, hp]
    exact hblank
  · show (S.prospect o).ears = if d.session.active then 1 else 0
    rw [hprospect, hact]
    exact hears

theorem startReveal_spec (hw : S.Fits w) (h : S.Sane d) (hact : d.session.active = true)
    (hphase : d.session.phase = .revealing) (hskip : d.session.skip = false)
    (hp : d.session.pending = []) (hstory : d.story = some p) (hrev : d.reveal = none)
    (hfree : Free d.scheduler none d.focus) (hears : (S.prospect d.outside).ears = 1)
    (hblank : (S.prospect d.outside).Shows []) :
    ∃ d', d.startReveal w.manner d.session.line () (lineRevealed w) = (d', none) ∧
      Lands S d d' ∧ Begun S p (S.news d) d.session.line d' := by
  obtain ⟨o, hshow, hk⟩ := hw.perform_same
    (d := d.withSession fun s => { s with revealing := true, revealed := 0 }) h.ok
    (c := .line d.session.line) trivial rfl rfl
  obtain ⟨o', hvis, hk'⟩ := hw.perform_same
    (d := { d.withSession fun s => { s with revealing := true, revealed := 0 } with outside := o })
    hk.1 (c := .visible 0) trivial rfl rfl
  have hprospect : S.prospect o' = S.prospect d.outside := hk'.2.trans hk.2
  let d₁ : Dialogue τ Unit ω :=
    { d.withSession fun s => { s with revealing := true, revealed := 0 } with outside := o' }
  have hsane : S.Sane d₁ := ⟨hk'.1, h.orderly, h.time, Nat.zero_le _⟩
  have hnews : S.news d₁ = S.news d := congrArg Prospect.news hprospect
  have hears' : (S.prospect o').ears = 1 := by rw [hprospect]; exact hears
  have hblank' : (S.prospect o').Shows [] := by rw [hprospect]; exact hblank
  have hcancel : d.cancelReveal w.stage = d := by
    unfold cancelReveal
    rw [hrev]
  have hstart : ∃ d' i, (host w.stage).start (.str "reveal_line")
      (runReveal w.manner d.session.line () (lineRevealed w)) d₁ = ((d', none), i) ∧
        Lands S d₁ { d' with reveal := some i } ∧
        Begun S p (S.news d₁) d.session.line { d' with reveal := some i } := by
    by_cases hempty : d.session.line.length = 0
    · obtain ⟨d', i, he, hl, hc⟩ :=
        reveal_empty hw hsane hact hp hstory hfree hears' hblank' hempty
      exact ⟨d', i, he, hl, .completed hc⟩
    · exact reveal_first hw hsane hact hphase rfl hskip hp hstory hfree hears' hblank'
        (Nat.pos_of_ne_zero hempty)
  obtain ⟨d', i, he, hl, hb⟩ := hstart
  refine ⟨{ d' with reveal := some i }, ?_, hl.after (.refl _), hnews ▸ hb⟩
  unfold startReveal
  simp only [hcancel]
  show (((perform w.stage (.line d.session.line) _).andThen _).andThen _) = _
  rw [hshow, Attempt.andThen_none, hvis, Attempt.andThen_none]
  show Attempt.andThen (Attempt.mapError _ (Prod.fst (Host.start _ _ _ d₁))) _ = _
  rw [he]
  rfl

/-! ## Lines with tags -/

omit [Clock τ] in
theorem onPanel_of_call {directive : Directive} {c : Call} (h : directive.call? = some c) :
    c.onPanel = false := by
  cases directive <;> cases h <;> rfl

theorem allows_of_call (hw : S.Fits w) {directive : Directive} {c : Call}
    (h : directive.call? = some c) : S.Allows c := by
  cases directive <;> cases h
  case playSound sound => exact hw.texts sound
  all_goals trivial

/-- The tags of a line are carried out; only an image may break them off. -/
theorem tags_spec (hw : S.Fits w) (tags : List String) {o : ω} (ho : S.ok o) :
    ∃ o' e, (Tag.applyAll w.stage tags o).1 = (o', e) ∧ S.Keeps id o o' ∧
      (e = none ∨ S.frail) := by
  induction tags generalizing o with
  | nil => exact ⟨o, none, rfl, ⟨ho, rfl⟩, Or.inl rfl⟩
  | cons tag tags ih =>
    unfold Tag.applyAll
    match Tag.parse tag with
    | .error e =>
      have hk := hw.report (Log.warning e.message) o ho
      obtain ⟨o', e', he, hk', hfrail⟩ := ih hk.1
      exact ⟨o', e', he, hk.trans hk', hfrail⟩
    | .ok directive =>
      have happly : ∃ o' e, directive.apply w.stage o = (o', e) ∧ S.Keeps id o o' ∧
          (e = none ∨ S.frail) := by
        match hcall : directive.call? with
        | none =>
          cases directive <;> cases hcall
          exact ⟨_, none, rfl, hw.report _ o ho, Or.inl rfl⟩
        | some c =>
          have hpanel := onPanel_of_call hcall
          obtain ⟨o', e, he, hk, hfrail⟩ := hw.perform c o ho (allows_of_call hw hcall)
          refine ⟨o', e, ?_, ⟨hk.1, hk.2.trans (Prospect.after_eq_self hpanel _)⟩,
            hfrail.imp_right And.left⟩
          cases directive <;> cases hcall <;> exact he
      obtain ⟨o', e, he, hk, hfrail⟩ := happly
      cases e with
      | some e =>
        simp only [he]
        exact ⟨o', some e, rfl, hk, hfrail⟩
      | none =>
        obtain ⟨o'', e', he', hk', hfrail'⟩ := ih hk.1
        simp only [he]
        exact ⟨o'', e', he', hk.trans hk', hfrail'⟩

/-- What comes of fetching a line: it is shown, or a tag breaks it off before that. -/
inductive Shown (S : Chamber τ ω) (p : Player) (ns : List Notice) (text : String)
    (d : Dialogue τ Unit ω) : Option Fault → Prop where
  | begun (h : Begun S p ns text d) : Shown S p ns text d none
  | broken (frail : S.frail) (e : Fault) (story : d.story = some p)
    (active : d.session.active = true) (revealing : d.session.revealing = false)
    (skip : d.session.skip = false) (pending : d.session.pending = []) (news : S.news d = ns) :
    Shown S p ns text d (some e)

theorem showLine_spec (hw : S.Fits w) (line : Story.Line) (h : S.Sane d)
    (hact : d.session.active = true) (hr : d.session.revealing = false)
    (hskip : d.session.skip = false) (hstory : d.story = some p) (hrev : d.reveal = none)
    (hfree : Free d.scheduler none d.focus) (hears : (S.prospect d.outside).ears = 1)
    (hblank : (S.prospect d.outside).Shows []) :
    ∃ d' e, d.showLine w line = (d', e) ∧ Lands S d d' ∧
      Shown S p (S.news d ++ [.lineStarted line.text line.tags]) line.text d' e := by
  obtain ⟨o, hpub, hk₁⟩ := hw.publish (.lineStarted line.text line.tags)
    (d.withSession (Session.beginLine line.text)) rfl h.ok
  obtain ⟨o', e, htags, hk, hfrail⟩ := tags_spec hw line.tags hk₁.1
  have hprospect : S.prospect o' =
      (S.prospect d.outside).told (.lineStarted line.text line.tags) := hk.2.trans hk₁.2
  have hears' : (S.prospect o').ears = 1 := by rw [hprospect]; exact hears
  have hblank' : (S.prospect o').Shows [] := by rw [hprospect]; exact hblank
  let d₁ : Dialogue τ Unit ω :=
    { d.withSession (Session.beginLine line.text) with outside := o' }
  have hsane : S.Sane d₁ := ⟨hk.1, h.orderly, h.time, Nat.zero_le _⟩
  have hnews : S.news d₁ = S.news d ++ [.lineStarted line.text line.tags] :=
    congrArg Prospect.news hprospect
  unfold showLine attempt
  simp only [hpub, htags]
  cases e with
  | none =>
    obtain ⟨d', he, hl, hb⟩ := startReveal_spec hw (d := d₁) hsane hact rfl hskip rfl hstory hrev
      hfree hears' hblank'
    exact ⟨d', none, he, hl.after (.refl _), .begun (hnews ▸ hb)⟩
  | some e =>
    have hmay : S.frail := hfrail.resolve_left nofun
    refine ⟨d₁, some e, rfl, ⟨⟨hsane, hblank', ?_, fun _ => ⟨p, hstory⟩, ?_⟩, .refl _⟩,
      .broken hmay e hstory hact hr hskip rfl hnews⟩
    · show (S.prospect o').ears = if d.session.active then 1 else 0
      rw [hact]
      exact hears'
    · exact .waiting hact hr hskip rfl (Or.inr ⟨hmay, rfl⟩) (hrev ▸ hfree)

end VisualNovel.Dialogue
