import VisualNovel.Proofs.Dialogue.Commands
import VisualNovel.Proofs.Dialogue.Lines
/-!
# Commands in a chamber

What comes of each command when nobody answers. To go on fetches one line, offers the choices or
ends the dialogue (`Goes`); every other command does nothing but a report, asks for a skip, or goes
on (`Advances`, `Chooses`, `Begins`).
-/
namespace VisualNovel.Dialogue
open Story (Player)

variable {τ ω : Type} {S : Chamber τ ω} {d d' : Dialogue τ Unit ω} {p : Player}

/-- What comes of going on with a story when `ns` was published: one line is fetched, the choices
are offered, or the dialogue ends. -/
inductive Goes (S : Chamber τ ω) (p : Player) (ns : List Notice) (d : Dialogue τ Unit ω) :
    Turn → Prop where
  | reads {line p' log e} (read : p.continue? = .ok (line, p', log))
    (shown : Shown S p' (ns ++ [.lineStarted line.text line.tags]) line.text d e) :
    Goes S p ns d (e.elim .done .failed)
  | pauses (read : p.canContinue = false) (some : p.choices ≠ []) (paused : Pauses S p ns d) :
    Goes S p ns d .done
  | ends (read : p.canContinue = false) (none : p.choices = []) (story : d.story = some p)
    (active : d.session.active = false) (phase : d.session.phase = .ended)
    (news : S.news d = ns ++ [.plain .dialogueEnded]) : Goes S p ns d .ended

/-- What comes of the player's signal. -/
inductive Advances (S : Chamber τ ω) (d d' : Dialogue τ Unit ω) : Turn → Prop where
  | rests (idle : d.session.active = false ∨ d.session.pending ≠ []) (same : d' = d) :
    Advances S d d' .done
  | skips (revealing : d.session.revealing = true)
    (same : d' = d.withSession fun s => { s with skip := true }) : Advances S d d' .done
  | goes {p t} (active : d.session.active = true) (pending : d.session.pending = [])
    (story : d.story = some p) (goes : Goes S p (S.news d) d' t) : Advances S d d' t

/-- What comes of a choice: a report at most, or a pending one is taken. -/
inductive Chooses (S : Chamber τ ω) (d d' : Dialogue τ Unit ω) : Turn → Prop where
  | rests {o t} (same : d' = { d with outside := o }) (keeps : S.Keeps id d.outside o)
    (turn : t = .done ∨ ∃ m, t = .failed (.misfit m)) : Chooses S d d' t
  | takes {p p' log t} {c : Choice} (mem : c ∈ d.session.pending) (story : d.story = some p)
    (chosen : p.choose? c.index = .ok (p', log))
    (goes : Goes S p' (S.news d ++ [.choiceMade c]) d' t) : Chooses S d d' t

/-- What comes of beginning a story: a report at most, or it is begun. -/
inductive Begins (S : Chamber τ ω) (d d' : Dialogue τ Unit ω) : Turn → Prop where
  | runs {o} (active : d.session.active = true) (same : d' = { d with outside := o })
    (keeps : S.Keeps id d.outside o) : Begins S d d' .done
  | unreadable (e : Story.FormatError) (active : d.session.active = false) (same : d' = d) :
    Begins S d d' (.unreadable e)
  | begun {t} (g : Story.Graph) (active : d.session.active = false)
    (goes : Goes S (Player.start g).1 (S.news d ++ [.plain .dialogueStarted]) d' t) :
    Begins S d d' t

/-- After each of these turns the dialogue has ended if it says so. -/
theorem Goes.off {ns : List Notice} (h : Goes S p ns d .ended) : d.session.active = false := by
  generalize ht : Turn.ended = t at h
  cases h with
  | reads read shown => cases shown <;> cases ht
  | pauses => cases ht
  | ends _ _ _ active => exact active

/-- To go on with a story never finds it unreadable. -/
theorem Goes.readable {ns : List Notice} {t : Turn} (h : Goes S p ns d t) (e : Story.FormatError) :
    t ≠ .unreadable e := by
  cases h with
  | reads read shown => cases shown <;> exact nofun
  | pauses | ends => exact nofun

/-- When nothing is pending, no choice has the focus. -/
theorem dark_of_nil (h : S.Kept d) (hp : d.session.pending = []) :
    (S.prospect d.outside).Dark := by
  have hshows := h.shows
  rw [hp] at hshows
  exact hshows.dark

/-- However a dialogue went on, no choice has the focus then. -/
theorem Goes.dark {ns : List Notice} {t : Turn} (h : Goes S p ns d t) (hd : S.Kept d) :
    (S.prospect d.outside).Dark := by
  cases h with
  | reads read shown =>
    cases shown with
    | begun h =>
      cases h with
      | reading _ _ revealing =>
        refine dark_of_nil hd ?_
        cases hd.doing with
        | away _ off | offering _ off | waiting _ off =>
          rw [revealing] at off
          cases off
        | reading _ _ _ pending => exact pending
      | completed h => exact h.dark
    | broken _ _ _ _ _ _ pending => exact dark_of_nil hd pending
  | pauses _ _ paused => exact paused.dark
  | ends _ _ _ active =>
    refine dark_of_nil hd ?_
    cases hd.doing with
    | away _ _ _ pending => exact pending
    | reading on | offering on | waiting on =>
      rw [active] at on
      cases on

/-! ## The end -/

section
variable [Clock τ] {w : Wiring τ ω}

/-- The tasks of a dialogue are cancelled and the choices taken away. -/
theorem clear_spec (hw : S.Fits w) (ho : S.ok d.outside)
    (hos : d.scheduler.Orderly (S.Due d.scheduler))
    (hset : Settled d.scheduler d.reveal d.focus) :
    ∃ s o, ((d.cancelReveal w.stage).cancelFocus w.stage).perform w.stage .hideChoices =
        ({ d with scheduler := s, reveal := none, focus := none, outside := o }, none) ∧
      s.Orderly (S.Due d.scheduler) ∧ d.scheduler.Follows s ∧ Free s none none ∧
      S.Keeps (·.after .hideChoices) d.outside o := by
  obtain ⟨s, hcancel, hos', hf, hfree⟩ := cancel_both w.stage hos hset
  obtain ⟨o, hhide, hk⟩ := hw.perform_eq
    (d := { d with scheduler := s, reveal := none, focus := none }) ho .hideChoices trivial rfl
  exact ⟨s, o, by rw [hcancel, hhide], hos', hf, hfree, hk⟩

theorem finish_spec (hw : S.Fits w) (h : S.Poised p d) (hread : p.canContinue = false)
    (hnone : p.choices = []) :
    ∃ d', d.finish w = (d', .ended) ∧ Lands S d d' ∧ Goes S p (S.news d) d' .ended := by
  have hk := hw.unlisten d.outside h.ok
  obtain ⟨s, o, hclear, hos, hf, hfree, hk'⟩ := clear_spec hw (d := d.withOutside w.unlisten) hk.1
    h.orderly h.settled
  obtain ⟨o', hpub, hk''⟩ := hw.publish (.plain .dialogueEnded) { d with
      session := d.session.finish
      scheduler := s
      reveal := none
      focus := none
      outside := o } rfl hk'.1
  have hreport := hw.report (Log.info "Dialogue ended") o' hk''.1
  have hprospect : S.prospect (w.stage.report (Log.info "Dialogue ended") o') =
      Prospect.told (.plain .dialogueEnded)
        (Prospect.after .hideChoices { S.prospect d.outside with ears := 0 }) :=
    (hk.trans (hk'.trans (hk''.trans hreport))).2
  have hsane : S.Sane { d with scheduler := s } := h.toSane.follow hos hf
  refine ⟨{ d with
      session := d.session.finish
      scheduler := s
      reveal := none
      focus := none
      outside := w.stage.report (Log.info "Dialogue ended") o' }, ?_,
    ⟨⟨⟨hreport.1, hsane.orderly, hsane.time, h.revealed⟩, ?_, ?_, nofun,
      .away rfl rfl rfl rfl hfree⟩, hf⟩, .ends hread hnone h.story rfl rfl ?_⟩
  · unfold finish
    rw [h.active]
    show Attempt.turn (perform w.stage .hideChoices _) _ = _
    rw [hclear]
    exact congrArg (fun d => (report w.stage (Log.info "Dialogue ended") d, Turn.ended)) hpub
  · show (S.prospect _).Shows []
    rw [show S.prospect _ = _ from hprospect]
    exact Prospect.shows_hide { S.prospect d.outside with ears := 0 }
  · show (S.prospect _).ears = 0
    rw [show S.prospect _ = _ from hprospect]
    rfl
  · unfold Chamber.news
    rw [show S.prospect _ = _ from hprospect]
    rfl

/-! ## Going on -/

theorem fetch_spec (hw : S.Fits w) (h : S.Poised p d) (hcan : p.canContinue = true) :
    ∃ d' t, ((((d.cancelReveal w.stage).cancelFocus w.stage).perform w.stage .hideChoices).turn
      fun d =>
        match p.continue? with
        | .error e => (d, .refused e)
        | .ok (line, story, log) =>
          ((({ d with story := some story }).reportAll w.stage log).showLine w line).turn
            (·, .done)) = (d', t) ∧ Lands S d d' ∧ Goes S p (S.news d) d' t := by
  obtain ⟨line, p', log, hread⟩ := Player.canContinue_iff.1 hcan
  obtain ⟨s, o, hclear, hos, hf, hfree, hk⟩ := clear_spec hw h.ok h.orderly h.settled
  obtain ⟨o', hreports, hk'⟩ := hw.reportAll_eq log
    (d := { d with
      scheduler := s
      reveal := none
      focus := none
      outside := o
      story := some p' }) hk.1
  have hprospect : S.prospect o' = (S.prospect d.outside).after .hideChoices := (hk.trans hk').2
  let d₁ : Dialogue τ Unit ω := { d with
    scheduler := s
    reveal := none
    focus := none
    outside := o'
    story := some p' }
  have hsane := h.toSane.follow hos hf
  have hnews : S.news d₁ = S.news d := (congrArg Prospect.news hprospect).trans rfl
  obtain ⟨d', e, he, hl, hshown⟩ := showLine_spec hw line (d := d₁)
    ⟨hk'.1, hsane.orderly, hsane.time, h.revealed⟩ h.active h.revealing h.skip rfl rfl hfree
    (by show (S.prospect o').ears = 1; rw [hprospect]; exact h.ears)
    (by show (S.prospect o').Shows []; rw [hprospect]; exact Prospect.shows_hide _)
  rw [hnews] at hshown
  refine ⟨d', e.elim .done .failed, ?_, hl.after hf, .reads hread hshown⟩
  rw [hclear]
  simp only [Attempt.turn, hread]
  rw [show reportAll w.stage log _ = d₁ from hreports, he]
  cases e <;> rfl

/-- The next line is fetched, the choices are offered, or the dialogue ends. -/
theorem continueStory_spec (hw : S.Fits w) (h : S.Poised p d) :
    ∃ d' t, d.continueStory w = (d', t) ∧ Lands S d d' ∧ Goes S p (S.news d) d' t := by
  unfold continueStory
  rw [h.story]
  simp only [h.active, h.revealing, Bool.not_true, Bool.false_or, Bool.false_eq_true, if_false]
  by_cases hcan : p.canContinue = true
  · rw [if_neg (by rw [hcan]; exact Bool.false_ne_true)]
    exact fetch_spec hw h hcan
  · rw [if_pos (by simp [hcan])]
    rw [Bool.not_eq_true] at hcan
    by_cases hnil : p.choices = []
    · rw [if_pos (by rw [hnil]; rfl)]
      obtain ⟨d', he, hl, hg⟩ := finish_spec hw h hcan hnil
      exact ⟨d', .ended, he, hl, hg⟩
    · rw [if_neg (by simpa using hnil), if_pos (by rw [h.pending]; rfl)]
      obtain ⟨s, hcancel, hos, hf, hfree⟩ := cancelFocus_free w.stage h.orderly h.tasks
      have hsane := h.toSane.follow hos hf
      obtain ⟨bs, hlen, hshows⟩ := h.shows
      obtain ⟨d', he, hl, hpaused, -⟩ := presentChoices_spec hw (p := p)
        (d := { d with scheduler := s, focus := none })
        ⟨⟨h.ok, hsane.orderly, hsane.time, h.revealed⟩, h.active, h.revealing, h.skip, h.pending,
          h.story, Or.inl hfree, h.ears, bs, hlen, hshows⟩ hfree fun htake => by
          -- There are choices, so there is no room for any, and none was on offer before.
          have hzero : S.slots = 0 := by
            rcases List.take_eq_nil_iff.1 htake with hzero | hchoices
            · exact hzero
            · exact absurd hchoices hnil
          rw [hzero, Nat.le_zero, List.length_eq_zero_iff] at hlen
          exact hlen ▸ hshows
      exact ⟨d', .done, by rw [hcancel, he]; rfl, hl.after hf, .pauses hcan hnil hpaused⟩

theorem advance_waiting (hw : S.Fits w) (h : S.Kept d) (hact : d.session.active = true)
    (hr : d.session.revealing = false) (hp : d.session.pending = []) :
    ∃ p d' t, d.story = some p ∧ d.advance w = (d', t) ∧ Lands S d d' ∧
      Goes S p (S.news d) d' t := by
  obtain ⟨p, hpoised⟩ := h.poised hact hr hp
  obtain ⟨d', t, he, hl, hg⟩ := continueStory_spec hw hpoised
  refine ⟨p, d', t, hpoised.story, ?_, hl, hg⟩
  unfold advance
  rw [hact, hr, hp]
  exact he

theorem advance_spec (hw : S.Fits w) (h : S.Kept d) :
    ∃ d' t, d.advance w = (d', t) ∧ Lands S d d' ∧ Advances S d d' t := by
  by_cases hact : d.session.active = true
  · by_cases hr : d.session.revealing = true
    · refine ⟨_, .done, ?_, ⟨h.skipping hr, .refl _⟩, .skips hr rfl⟩
      unfold advance
      rw [hact, hr]
      rfl
    · rw [Bool.not_eq_true] at hr
      by_cases hp : d.session.pending = []
      · obtain ⟨p, d', t, hstory, he, hl, hg⟩ := advance_waiting hw h hact hr hp
        exact ⟨d', t, he, hl, .goes hact hp hstory hg⟩
      · refine ⟨d, .done, ?_, .same h, .rests (Or.inr hp) rfl⟩
        unfold advance
        simp [hact, hr, hp]
  · rw [Bool.not_eq_true] at hact
    refine ⟨d, .done, ?_, .same h, .rests (Or.inl hact) rfl⟩
    unfold advance
    rw [hact]
    rfl

/-- A command to go on comes to the same as the player's signal, unless a line is being
revealed. -/
theorem continueStory_kept (hw : S.Fits w) (h : S.Kept d) :
    ∃ d' t, d.continueStory w = (d', t) ∧ Lands S d d' ∧
      (d' = d ∧ t = .done ∨ ∃ p, d.story = some p ∧ Goes S p (S.news d) d' t) := by
  by_cases hwait : d.session.active = true ∧ d.session.revealing = false ∧ d.session.pending = []
  · obtain ⟨hact, hr, hp⟩ := hwait
    obtain ⟨p, hpoised⟩ := h.poised hact hr hp
    obtain ⟨d', t, he, hl, hg⟩ := continueStory_spec hw hpoised
    exact ⟨d', t, he, hl, Or.inr ⟨p, hpoised.story, hg⟩⟩
  · refine ⟨d, .done, ?_, .same h, Or.inl ⟨rfl, rfl⟩⟩
    cases h.doing with
    | away active =>
      unfold continueStory
      cases d.story with
      | none => rfl
      | some p => simp [active]
    | reading _ revealing =>
      unfold continueStory
      cases d.story with
      | none => rfl
      | some p => simp [revealing]
    | offering active revealing skip phase some pending =>
      exact continueStory_heedless w (heedless_of_choices pending some)
    | waiting active revealing _ pending => exact absurd ⟨active, revealing, pending⟩ hwait

/-! ## Choices -/

/-- A choice that is pending is taken, and the dialogue goes on with where it leads to. -/
theorem take_spec (hw : S.Fits w) (h : S.Kept d) {c : Choice} (hc : c ∈ d.session.pending) :
    ∃ p p' log d' t, d.story = some p ∧ p.choose? c.index = .ok (p', log) ∧
      d.take w p c = (d', t) ∧ Lands S d d' ∧
      Goes S p' (S.news d ++ [.choiceMade c]) d' t := by
  cases h.doing with
  | away _ _ _ pending | reading _ _ _ pending | waiting _ _ _ pending =>
    rw [pending] at hc
    cases hc
  | offering active revealing skip phase some pending tasks =>
    obtain ⟨p, hstory⟩ := h.story active
    have hoffered : c ∈ p.choices := by
      rw [pending, storyChoices, hstory] at hc
      exact List.mem_of_mem_take hc
    obtain ⟨p', log, htake⟩ := Player.choose?_of_mem hoffered
    obtain ⟨o, hreports, hk⟩ := hw.reportAll_eq log (d := { d with story := Option.some p' }) h.ok
    obtain ⟨o', hpub, hk'⟩ := hw.publish (.choiceMade c)
      { d with
        session := { d.session with pending := [] }
        story := Option.some p'
        outside := o } rfl hk.1
    have hprospect : S.prospect o' = (S.prospect d.outside).told (.choiceMade c) :=
      (hk.trans hk').2
    have hears := h.ears
    rw [active] at hears
    have hlen : (d.session.pending.map Button.ofChoice).length ≤ S.slots := by
      rw [List.length_map, pending]
      exact List.length_take_le _ _
    have hshows : (S.prospect o').Shows (d.session.pending.map Button.ofChoice) := by
      rw [hprospect]
      exact h.shows
    obtain ⟨d', t, he, hl, hg⟩ := continueStory_spec hw (p := p')
      (d := { d with
        session := { d.session with pending := [] }
        story := Option.some p'
        outside := o' })
      ⟨⟨hk'.1, h.orderly, h.time, h.revealed⟩, active, revealing, skip, rfl, rfl, tasks,
        by show (S.prospect o').ears = 1; rw [hprospect]; exact hears, _, hlen, hshows⟩
    have hnews : S.news { d with
        session := { d.session with pending := [] }
        story := Option.some p'
        outside := o' } = S.news d ++ [.choiceMade c] :=
      (congrArg Prospect.news hprospect).trans rfl
    rw [hnews] at hg
    refine ⟨p, p', log, d', t, hstory, htake, ?_, hl.after (.refl _), hg⟩
    unfold take
    simp only [htake, hreports]
    exact (congrArg (continueStory w) hpub).trans he

theorem reportChoice_spec (hw : S.Fits w) (h : S.Kept d) (entry : String → Log.Entry)
    (index : Json) :
    ∃ d' t, d.reportChoice w.stage entry index = (d', t) ∧ Lands S d d' ∧ Chooses S d d' t := by
  unfold reportChoice
  match index.number.bind Number.truncate with
  | .error e => exact ⟨d, _, rfl, .same h, .rests rfl ⟨h.ok, rfl⟩ (Or.inr ⟨e, rfl⟩)⟩
  | .ok n =>
    have hk := hw.report (entry (toString n)) d.outside h.ok
    exact ⟨_, _, rfl, ⟨h.keeps hk, .refl _⟩, .rests rfl hk (Or.inl rfl)⟩

theorem choose_spec (hw : S.Fits w) (h : S.Kept d) (index : Json) :
    ∃ d' t, d.choose w index = (d', t) ∧ Lands S d d' ∧ Chooses S d d' t := by
  have hdone : Chooses S d d .done := .rests rfl ⟨h.ok, rfl⟩ (Or.inl rfl)
  have hfail (e : Misfit) : Chooses S d d (.failed (.misfit e)) :=
    .rests rfl ⟨h.ok, rfl⟩ (Or.inr ⟨e, rfl⟩)
  unfold choose
  match hstory : d.story with
  | none => exact ⟨d, _, rfl, .same h, hdone⟩
  | some p =>
    simp only
    split
    · exact ⟨d, _, rfl, .same h, hdone⟩
    · split
      · exact reportChoice_spec hw h _ _
      · match index.number with
        | .error e => exact ⟨d, _, rfl, .same h, hfail e⟩
        | .ok n =>
          simp only
          split
          · match index.count with
            | .error e => exact ⟨d, _, rfl, .same h, hfail e⟩
            | .ok i =>
              simp only
              match hget : d.session.pending[i.toNat]? with
              | none => exact ⟨d, _, rfl, .same h, hdone⟩
              | some c =>
                have hmem := List.mem_of_getElem? hget
                obtain ⟨q, p', log, d', t, hstory', hchosen, he, hl, hg⟩ := take_spec hw h hmem
                cases hstory.symm.trans hstory'
                exact ⟨d', t, he, hl, .takes hmem hstory hchosen hg⟩
          · exact reportChoice_spec hw h _ _

omit [Clock τ] in
/-- The choice in a slot is within the range of those that are pending. -/
theorem slot_in_range {k : Nat} {cs : List Choice} (hk : k < cs.length) :
    (Number.le (.int 0) (.int k) && Number.lt (.int k) (.int cs.length)) = true := by
  simp [Number.le, Number.lt, hk]

/-- Every pending choice is accepted by its place. -/
theorem choose_slot (hw : S.Fits w) (h : S.Kept d) {k : Nat} {c : Choice}
    (hc : d.session.pending[k]? = some c) :
    ∃ p p' log d' t, d.story = some p ∧ p.choose? c.index = .ok (p', log) ∧
      d.choose w (.int k) = (d', t) ∧ Lands S d d' ∧
      Goes S p' (S.news d ++ [.choiceMade c]) d' t := by
  have hmem := List.mem_of_getElem? hc
  obtain ⟨p, p', log, d', t, hstory, hchosen, he, hl, hg⟩ := take_spec hw h hmem
  obtain ⟨hk, -⟩ := List.getElem?_eq_some_iff.1 hc
  refine ⟨p, p', log, d', t, hstory, hchosen, ?_, hl, hg⟩
  cases h.doing with
  | away _ _ _ pending | reading _ _ _ pending | waiting _ _ _ pending =>
    rw [pending] at hmem
    cases hmem
  | offering active revealing =>
    unfold choose
    simp only [hstory, active, revealing, Json.number, slot_in_range hk, Json.count,
      Int.toNat_natCast, hc, Bool.not_true, Bool.false_eq_true, if_false, if_true, Option.elim_some]
    exact he

/-! ## Beginning and breaking off -/

theorem begin_spec (hw : S.Fits w) (h : S.Kept d) (content : Json) :
    ∃ d' t, d.begin w content = (d', t) ∧ Lands S d d' ∧ Begins S d d' t := by
  unfold begin
  split
  · next hact =>
    have hk := hw.report (Log.error "Dialogue already running; start_dialogue ignored") d.outside
      h.ok
    exact ⟨_, _, rfl, ⟨h.keeps hk, .refl _⟩, .runs hact rfl hk⟩
  · next hoff =>
    rw [Bool.not_eq_true] at hoff
    match Story.Graph.ofContent content with
    | .error e => exact ⟨d, _, rfl, .same h, .unreadable e hoff rfl⟩
    | .ok g =>
      simp only
      cases h.doing with
      | reading active | offering active | waiting active =>
        rw [hoff] at active
        cases active
      | away _ revealing skip pending free =>
        obtain ⟨o₁, hreports, hk₁⟩ := hw.reportAll_eq (Player.start g).2
          (d := { d with story := some (Player.start g).1 }) h.ok
        let d₁ : Dialogue τ Unit ω := { d with
          session := { d.session with active := true, phase := .idle }
          story := some (Player.start g).1
          outside := o₁ }
        obtain ⟨o₂, hswitch, hk₂⟩ := hw.perform_same (d := d₁) hk₁.1 (c := .switchTheme "")
          trivial rfl rfl
        obtain ⟨o₃, hlisten, hk₃⟩ := hw.listen o₂ hk₂.1
        obtain ⟨o₄, hpub, hk₄⟩ := hw.publish (.plain .dialogueStarted) { d₁ with outside := o₃ } rfl
          hk₃.1
        have hk₅ := hw.report (Log.info "Dialogue started") o₄ hk₄.1
        let d₅ : Dialogue τ Unit ω :=
          { d₁ with outside := w.stage.report (Log.info "Dialogue started") o₄ }
        have hprospect : S.prospect d₅.outside =
            Prospect.told (.plain .dialogueStarted)
              { S.prospect d.outside with ears := (S.prospect d.outside).ears + 1 } :=
          (hk₁.trans (hk₂.trans (hk₃.trans (hk₄.trans hk₅)))).2
        have hears := h.ears
        rw [hoff] at hears
        have hshows := h.shows
        rw [pending] at hshows
        obtain ⟨d', t, he, hl, hg⟩ := continueStory_spec hw (p := (Player.start g).1) (d := d₅)
          ⟨⟨hk₅.1, h.orderly, h.time, h.revealed⟩, rfl, revealing, skip, pending, rfl, Or.inl free,
            by rw [hprospect]; exact congrArg (· + 1) hears, [], Nat.zero_le _,
            by rw [hprospect]; exact hshows⟩
        have hnews : S.news d₅ = S.news d ++ [.plain .dialogueStarted] :=
          (congrArg Prospect.news hprospect).trans rfl
        rw [hnews] at hg
        refine ⟨d', t, ?_, hl.after (.refl _), .begun g hoff hg⟩
        have hattempt : attempt w.listen { d₁ with outside := o₂ } =
            ({ d₁ with outside := o₃ }, none) := by
          unfold attempt
          rw [hlisten]
        rw [hreports]
        show Attempt.turn (Attempt.andThen (perform w.stage (.switchTheme "") d₁) _) _ = _
        rw [hswitch, Attempt.andThen_none, hattempt]
        show continueStory w (report w.stage _ (w.publish (.plain .dialogueStarted) _)) = _
        rw [hpub]
        exact he

omit [Clock τ] in
/-- A dialogue that is broken off has no task of its own and listens to nobody. -/
theorem shutdown_spec {P : Task τ (Activity Unit) → Activity Unit → Prop} (w : Wiring τ ω)
    (ho : d.scheduler.Orderly P) (hset : Settled d.scheduler d.reveal d.focus) :
    ∃ s, d.shutdown w = { d with
        session := d.session.reset
        scheduler := s
        reveal := none
        focus := none
        outside := w.unlisten d.outside } ∧
      s.Orderly P ∧ d.scheduler.Follows s ∧ Free s none none := by
  obtain ⟨s, hcancel, hos, hf, hfree⟩ := cancel_both w.stage (d := d.withOutside w.unlisten) ho hset
  exact ⟨s, by unfold shutdown; rw [hcancel]; rfl, hos, hf, hfree⟩

end
end VisualNovel.Dialogue
