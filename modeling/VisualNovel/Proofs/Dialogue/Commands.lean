import VisualNovel.Proofs.Dialogue.Reveal
/-!
# Commands keep a dialogue steady

Every command leaves a steady dialogue behind, and a composed one in a calm venue. A command in
that is answered on the way goes on with what the answers made of the dialogue.
-/
namespace VisualNovel.Dialogue
open Venue (Lands)

variable {τ ω : Type} {S : Venue τ ω} [Clock τ] {w : Wiring τ ω} {d : Dialogue τ Unit ω}

/-! ## Fetching a line -/

theorem after_call {directive : Directive} {c : Call} (h : directive.call? = some c)
    (p : Sight) : p.after c = p := by
  cases directive <;> cases h <;> rfl

theorem not_choices {directive : Directive} {c : Call} (h : directive.call? = some c)
    (cs : List Choice) : c ≠ .choices cs := by
  cases directive <;> cases h <;> exact nofun

/-- The tags of a line are carried out without breaking off. -/
theorem tags_keep (hw : S.Suits w) (tags : List String) {o : ω} (ho : S.ok o) :
    ∃ o', (Tag.applyAll w.stage tags o).1 = (o', none) ∧ S.Keeps id o o' := by
  induction tags generalizing o with
  | nil => exact ⟨o, rfl, ho, rfl⟩
  | cons tag tags ih =>
    unfold Tag.applyAll
    match Tag.parse tag with
    | .error e =>
      have hk := hw.report (Log.warning e.message) o ho
      obtain ⟨o', he, hk'⟩ := ih hk.1
      exact ⟨o', he, hk.trans hk'⟩
    | .ok directive =>
      have happly : ∃ o', directive.apply w.stage o = (o', none) ∧ S.Keeps id o o' := by
        match hcall : directive.call? with
        | none =>
          cases directive <;> cases hcall
          exact ⟨_, rfl, hw.report _ o ho⟩
        | some c =>
          obtain ⟨o', he, hk⟩ := hw.perform c o ho fun cs hcs => absurd hcs (not_choices hcall cs)
          refine ⟨o', ?_, hk.1, hk.2.trans (after_call hcall _)⟩
          cases directive <;> cases hcall <;> exact he
      obtain ⟨o', he, hk⟩ := happly
      obtain ⟨o'', he', hk'⟩ := ih hk.1
      simp only [he]
      exact ⟨o'', he', hk.trans hk'⟩

theorem showLine_lands (hw : S.Suits w) (ha : S.Attends w) (line : Story.Line) (h : S.Sane d)
    (hfree : Free d.scheduler none d.focus) (hrev : d.reveal = none)
    (hact : d.session.active = true) (hr : d.session.revealing = false)
    (hskip : d.session.skip = false) (hoff : (S.sight d.outside).offered = [])
    (hu : S.Under d none) (hc : S.calm → (S.sight d.outside).ears = 1 ∧ ∃ p p' log,
      History S.course (S.sight d.outside).news (S.sight d.outside).bows (some p) .pause ∧
      p.continue? = .ok (line, p', log) ∧ d.story = some p') :
    ∃ d', d.showLine w line = (d', none) ∧ S.Lands d d' .done := by
  obtain ⟨o, hpub, hk₁⟩ := ha.lineStarted line.text line.tags
    (d.withSession (Session.beginLine line.text)) h.ok hact hr rfl
  obtain ⟨o', htags, hk⟩ := tags_keep hw line.tags hk₁.1
  have hsight : S.sight o' = { S.sight d.outside with
      news := (S.sight d.outside).news ++ [.lineStarted line.text line.tags] } :=
    hk.2.trans hk₁.2
  obtain ⟨d', he, hl⟩ := startReveal_lands hw ha
    (d := { d.withSession (Session.beginLine line.text) with outside := o' })
    ⟨hk.1, h.orderly, h.time, Nat.zero_le _⟩ hfree hrev hact rfl hskip rfl
    (by rw [hsight]; exact hoff)
    (((hu.heard (n := .lineStarted line.text line.tags) rfl).ofHeard hk₁).outside
      (congrArg Sight.news hk.2)) fun hcalm => by
      obtain ⟨hears, p, p', log, hch, hread, hstory⟩ := hc hcalm
      unfold Venue.Chronicle
      rw [hsight]
      refine ⟨?_, hears⟩
      show History S.course _ _ d.story (.line line.text)
      rw [hstory]
      exact hch.read hread
  refine ⟨d', ?_, hl.after (.refl _)⟩
  unfold showLine attempt
  simp only [hpub, htags, Attempt.andThen_none]
  exact he

/-! ## The end -/

theorem clear_eq (hw : S.Suits w) (ho : S.ok d.outside) (hos : d.scheduler.Orderly S.Timely)
    (hset : Settled d.scheduler d.reveal d.focus) :
    ∃ s o, ((d.cancelReveal w.stage).cancelFocus w.stage).perform w.stage .hideChoices =
        ({ d with scheduler := s, reveal := none, focus := none, outside := o }, none) ∧
      s.Orderly S.Timely ∧ d.scheduler.Follows s ∧ Free s none none ∧
      S.Keeps (fun p => { p with offered := [] }) d.outside o := by
  obtain ⟨s, hcancel, hos', hf, hfree⟩ := cancel_both w.stage hos hset
  obtain ⟨o, hhide, hk⟩ := hw.perform_eq
    (d := { d with scheduler := s, reveal := none, focus := none }) ho .hideChoices nofun
  exact ⟨s, o, by rw [hcancel, hhide], hos', hf, hfree, hk⟩

/-- A running dialogue that is about to go on ends. -/
theorem finish_lands (hw : S.Suits w) (ha : S.Attends w) (h : S.Steady d)
    (hact : d.session.active = true) (hr : d.session.revealing = false)
    (hc : S.calm → S.Poised d .pause) :
    ∃ d', d.finish w = (d', .ended) ∧ S.Lands d d' .ended := by
  have hk := hw.unlisten d.outside h.ok
  obtain ⟨s, o, hclear, hos, hf, hfree, hk'⟩ := clear_eq hw (d := d.withOutside w.unlisten) hk.1
    h.orderly h.settled
  have hstill : S.Still { d with
      session := d.session.finish
      scheduler := s
      reveal := none
      focus := none
      outside := o } := ⟨⟨hk'.1, hos, hf.time ▸ h.time, h.revealed⟩, rfl, rfl, hfree⟩
  have hunder : S.Under { d with
      session := d.session.finish
      scheduler := s
      reveal := none
      focus := none
      outside := o } none :=
    (h.under hact hr).outside ((congrArg Sight.news (hk.trans hk').2).trans rfl)
  obtain ⟨hsteady, hf'⟩ := ha.other (.plain .dialogueEnded) _ (Or.inr (Or.inl rfl))
    ((hstill.heard _).steady nofun (hunder.heard rfl) fun _ => rfl)
  refine ⟨_, ?_, Lands.outside ⟨hsteady, hf.trans hf', fun hcalm => ⟨?_, ?_⟩⟩
    (hw.report (Log.info "Dialogue ended") _ hsteady.ok)⟩
  · unfold finish
    rw [hact]
    show Attempt.turn (perform w.stage .hideChoices _) _ = _
    rw [hclear]
    rfl
  · have hp := hc hcalm
    obtain ⟨o', heq, hk''⟩ := ha.calm hcalm (.plain .dialogueEnded) _ rfl hstill.ok
    have hsight : S.sight o' = { S.sight d.outside with
        news := (S.sight d.outside).news ++ [.plain .dialogueEnded]
        offered := []
        ears := 0 } := (hk.trans (hk'.trans hk'')).2
    rw [heq]
    refine .ofAway ?_ ?_ rfl (Or.inr rfl) rfl hfree
    · show History S.course (S.sight o').news (S.sight o').bows d.story .untold
      rw [hsight]
      exact hp.chronicle.ended
    · show (S.sight o').ears = 0
      rw [hsight]
  · obtain ⟨o', heq, -⟩ := ha.calm hcalm (.plain .dialogueEnded) _ rfl hstill.ok
    rw [heq]
    rfl

/-! ## Going on -/

/-- A dialogue that may be told to go on: it is composed, or a notice was just published. -/
def Ready (S : Venue τ ω) (d : Dialogue τ Unit ω) : Prop :=
  S.calm → S.Composed d d.session.moment ∨ S.Poised d .pause

omit [Clock τ] in
theorem Ready.poised (h : Ready S d) (hcalm : S.calm) (hact : d.session.active = true)
    (hr : d.session.revealing = false) (hp : d.session.pending = []) : S.Poised d .pause := by
  rcases h hcalm with hcomp | hpoised
  · have hm : d.session.moment = .pause := by simp [Session.moment, hact, hr]
    refine ⟨hm ▸ hcomp.chronicle, ?_, hact, hr, hp⟩
    rw [hcomp.ears, hact]
    rfl
  · exact hpoised

omit [Clock τ] in
/-- What is not about to go on is composed. -/
theorem Ready.composed (h : Ready S d) (hcalm : S.calm)
    (hne : d.session.active = true → d.session.revealing = false → d.session.pending ≠ []) :
    S.Composed d d.session.moment := by
  rcases h hcalm with hcomp | hpoised
  · exact hcomp
  · exact absurd hpoised.pending (hne hpoised.active hpoised.revealing)

omit [Clock τ] in
/-- No choice is pending while there is nothing to choose. -/
theorem Ready.pending (h : Ready S d) (hcalm : S.calm) (hnil : d.storyChoices = []) :
    d.session.pending = [] := by
  rcases h hcalm with hcomp | hpoised
  · by_cases hne : d.session.pending = []
    · exact hne
    · rw [hcomp.pending hne, hnil, List.take_nil]
  · exact hpoised.pending

omit [Clock τ] in
theorem stay (h : S.Steady d) (hc : S.calm → S.Composed d d.session.moment) :
    S.Lands d d .done :=
  ⟨h, .refl _, fun hcalm => ⟨hc hcalm, trivial⟩⟩

theorem fetch_lands (hw : S.Suits w) (ha : S.Attends w) (h : S.Steady d)
    (hact : d.session.active = true) (hr : d.session.revealing = false) (hc : Ready S d)
    {p : Story.Player} (hstory : d.story = some p) (hcan : p.canContinue = true) :
    ∃ d' t, ((((d.cancelReveal w.stage).cancelFocus w.stage).perform w.stage .hideChoices).turn
      fun d =>
        match p.continue? with
        | .error e => (d, .refused e)
        | .ok (line, story, log) =>
          ((({ d with story := some story }).reportAll w.stage log).showLine w line).turn
            (·, .done)) = (d', t) ∧ S.Lands d d' t := by
  obtain ⟨line, p', log, hread⟩ := Story.Player.canContinue_iff.1 hcan
  obtain ⟨s, o, hclear, hos, hf, hfree, hk⟩ := clear_eq hw h.ok h.orderly h.settled
  obtain ⟨o', hreports, hk'⟩ := hw.reportAll_eq log
    (d := { d with
      scheduler := s
      reveal := none
      focus := none
      outside := o
      story := some p' }) hk.1
  have hsight : S.sight o' = { S.sight d.outside with offered := [] } := (hk.trans hk').2
  obtain ⟨d', he, hl⟩ := showLine_lands hw ha line
    (d := { d with
      scheduler := s
      reveal := none
      focus := none
      outside := o'
      story := some p' })
    ⟨hk'.1, hos, hf.time ▸ h.time, h.revealed⟩ hfree rfl hact hr (h.skip_false hr)
    (by rw [hsight]) ((h.under hact hr).outside ((congrArg Sight.news hsight).trans rfl))
    fun hcalm => by
      have hpoised : S.Poised d .pause := by
        refine hc.poised hcalm hact hr ?_
        rcases hc hcalm with hcomp | hpoised
        · by_cases hne : d.session.pending = []
          · exact hne
          · have hsome : p.choices ≠ [] := by
              intro hnil
              rw [hcomp.pending hne, storyChoices, hstory] at hne
              simp [hnil] at hne
            rw [Story.Player.canContinue_of_choices hsome] at hcan
            cases hcan
        · exact hpoised.pending
      rw [hsight]
      refine ⟨hpoised.ears, p, p', log, ?_, hread, rfl⟩
      have hch := hpoised.chronicle
      unfold Venue.Chronicle at hch
      rw [hstory] at hch
      exact hch
  refine ⟨d', .done, ?_, hl.after hf⟩
  rw [hclear]
  simp only [Attempt.turn, hread, hreports, he]

/-- The choices are offered because nothing is left to read. -/
theorem offer_again_lands (hw : S.Suits w) (ha : S.Attends w) (h : S.Steady d)
    (hact : d.session.active = true) (hr : d.session.revealing = false)
    (hc : S.calm → S.Poised d .pause) :
    ∃ d' t, ((d.cancelFocus w.stage).presentChoices w).turn (·, .done) = (d', t) ∧
      S.Lands d d' t := by
  obtain ⟨s, hcancel, hos, hf, hfree⟩ := cancelFocus_free w.stage h.orderly (h.idles hr)
  obtain ⟨d', he, hl, -⟩ := presentChoices_lands hw ha
    (d := { d with scheduler := s, focus := none })
    ⟨⟨h.ok, hos, hf.time ▸ h.time, h.revealed⟩, hr, h.skip_false hr, hfree⟩ (h.under hact hr)
    fun hcalm => ⟨(hc hcalm).chronicle, (hc hcalm).ears, (hc hcalm).active, hr, (hc hcalm).pending⟩
  exact ⟨d', .done, by rw [hcancel, he]; rfl, hl.after hf⟩

/-- The next line is fetched, the choices are offered, or the dialogue ends. -/
theorem continueStory_lands (hw : S.Suits w) (ha : S.Attends w) (h : S.Steady d)
    (hc : Ready S d) : ∃ d' t, d.continueStory w = (d', t) ∧ S.Lands d d' t := by
  unfold continueStory
  match hstory : d.story with
  | none =>
    refine ⟨d, .done, rfl, stay h fun hcalm => hc.composed hcalm fun hact hr hp => ?_⟩
    obtain ⟨p, hp⟩ := (hc.poised hcalm hact hr hp).chronicle.story nofun
    rw [hstory] at hp
    cases hp
  | some p =>
    simp only
    by_cases hidle : (!d.session.active || d.session.revealing) = true
    · rw [if_pos hidle]
      refine ⟨d, .done, rfl, stay h fun hcalm => hc.composed hcalm fun hact hr => ?_⟩
      rw [hact, hr] at hidle
      cases hidle
    · rw [if_neg hidle]
      rw [Bool.not_eq_true, Bool.or_eq_false_iff, Bool.not_eq_false'] at hidle
      obtain ⟨hact, hr⟩ := hidle
      by_cases hcan : p.canContinue = true
      · rw [if_neg (by rw [hcan]; exact Bool.false_ne_true)]
        exact fetch_lands hw ha h hact hr hc hstory hcan
      · rw [if_pos (by simp [hcan])]
        have hchoices : d.storyChoices = p.choices := by
          unfold storyChoices
          rw [hstory]
          rfl
        by_cases hnil : p.choices = []
        · rw [if_pos (by rw [hnil]; rfl)]
          obtain ⟨d', he, hl⟩ := finish_lands hw ha h hact hr fun hcalm =>
            hc.poised hcalm hact hr (hc.pending hcalm (hchoices.trans hnil))
          exact ⟨d', .ended, he, hl⟩
        · rw [if_neg (by simpa using hnil)]
          by_cases hp : d.session.pending = []
          · rw [if_pos (by rw [hp]; rfl)]
            exact offer_again_lands hw ha h hact hr fun hcalm => hc.poised hcalm hact hr hp
          · rw [if_neg (by simpa using hp)]
            exact ⟨d, .done, rfl, stay h fun hcalm => hc.composed hcalm fun _ _ => hp⟩

/-! ## Commands without effect -/

/-- A dialogue that takes no heed of it is told to go on. -/
theorem continueStory_heedless (w : Wiring τ ω) (h : Venue.Heedless d) :
    d.continueStory w = (d, .done) := by
  unfold continueStory
  match hstory : d.story with
  | none => rfl
  | some p =>
    simp only
    cases hact : d.session.active with
    | false => rfl
    | true =>
      obtain ⟨hp, p', hp', hcan, hne⟩ := h hact
      cases hstory.symm.trans hp'
      simp [hp, hcan, hne]

/-- The player's signal comes to a dialogue that takes no heed of it. -/
theorem advance_heedless (w : Wiring τ ω) (h : Venue.Heedless d)
    (hr : d.session.active = true → d.session.revealing = false) :
    d.advance w = (d, .done) := by
  unfold advance
  cases hact : d.session.active with
  | false => rfl
  | true => simp [hr hact, (h hact).1]

/-- Where no choice is pending, none is made. -/
theorem choose_unoffered (hw : S.Suits w) (index : Json) (ho : S.ok d.outside)
    (hp : d.session.pending = []) :
    ∃ o t, d.choose w index = (d.withOutside fun _ => o, t) ∧ t ≠ .ended ∧
      S.Keeps id d.outside o := by
  have hsame : S.Keeps id d.outside d.outside := ⟨ho, rfl⟩
  have hreport (entry : String → Log.Entry) : ∃ o t, d.reportChoice w.stage entry index =
      (d.withOutside fun _ => o, t) ∧ t ≠ .ended ∧ S.Keeps id d.outside o := by
    unfold reportChoice
    match index.number.bind Number.truncate with
    | .error e => exact ⟨d.outside, _, rfl, nofun, hsame⟩
    | .ok n => exact ⟨_, _, rfl, nofun, hw.report _ _ ho⟩
  unfold choose
  match d.story with
  | none => exact ⟨d.outside, _, rfl, nofun, hsame⟩
  | some p =>
    simp only
    split
    · exact ⟨d.outside, _, rfl, nofun, hsame⟩
    · split
      · exact hreport _
      · match index.number with
        | .error e => exact ⟨d.outside, _, rfl, nofun, hsame⟩
        | .ok n =>
          simp only
          split
          · match index.count with
            | .error e => exact ⟨d.outside, _, rfl, nofun, hsame⟩
            | .ok i =>
              simp only [hp]
              exact ⟨d.outside, _, rfl, nofun, hsame⟩
          · exact hreport _

/-! ## The player's commands -/

theorem advance_lands (hw : S.Suits w) (ha : S.Attends w) (h : S.Steady d)
    (hc : S.calm → S.Composed d d.session.moment) :
    ∃ d' t, d.advance w = (d', t) ∧ S.Lands d d' t := by
  unfold advance
  split
  · exact ⟨d, .done, rfl, stay h hc⟩
  · split
    · next hr =>
      refine ⟨_, .done, rfl, ⟨⟨h.ok, h.orderly, h.time, h.revealed⟩, h.phase, fun _ => hr, h.shows,
        h.reveals, h.idles, h.pace⟩, .refl _, fun hcalm => ⟨?_, trivial⟩⟩
      have hcomp := hc hcalm
      exact ⟨hcomp.chronicle, hcomp.ears, hcomp.running, hcomp.resting, hcomp.awaits,
        hcomp.pending, hcomp.focusing⟩
    · split
      · exact continueStory_lands hw ha h fun hcalm => Or.inl (hc hcalm)
      · exact ⟨d, .done, rfl, stay h hc⟩

theorem reportChoice_lands (hw : S.Suits w) (entry : String → Log.Entry) (index : Json)
    (h : S.Steady d) (hc : S.calm → S.Composed d d.session.moment) :
    ∃ d' t, d.reportChoice w.stage entry index = (d', t) ∧ S.Lands d d' t := by
  unfold reportChoice
  match index.number.bind Number.truncate with
  | .error e => exact ⟨d, .failed (.misfit e), rfl, h, .refl _, fun hcalm => ⟨hc hcalm, trivial⟩⟩
  | .ok n => exact ⟨_, .done, rfl, (stay h hc).outside (hw.report _ _ h.ok)⟩

theorem take_lands (hw : S.Suits w) (ha : S.Attends w) (h : S.Steady d)
    (hact : d.session.active = true) (hr : d.session.revealing = false)
    (hc : S.calm → S.Composed d d.session.moment) {p : Story.Player} (hstory : d.story = some p)
    {c : Choice} (hmem : c ∈ d.session.pending) :
    ∃ d' t, d.take w p c = (d', t) ∧ S.Lands d d' t := by
  have hoffered (hcalm : S.calm) : c ∈ p.choices := by
    have hp := (hc hcalm).pending (List.ne_nil_of_mem hmem)
    rw [hp, storyChoices, hstory] at hmem
    exact List.mem_of_mem_take hmem
  unfold take
  match htake : p.choose? c.index with
  | .error e =>
    refine ⟨d, .refused e, rfl, h, .refl _, fun hcalm => ?_⟩
    obtain ⟨p', log, hok⟩ := Story.Player.choose?_of_mem (hoffered hcalm)
    rw [htake] at hok
    cases hok
  | .ok (p', log) =>
    obtain ⟨o, hreports, hk⟩ := hw.reportAll_eq log (d := { d with story := some p' }) h.ok
    have hunder : (S.heard (.choiceMade c)).Under { d with
        session := { d.session with pending := [] }
        story := some p'
        outside := o } none :=
      Venue.Under.heard (S := S) ((h.under hact hr).outside (congrArg Sight.news hk.2)) rfl
    have hsteady : (S.heard (.choiceMade c)).Steady { d with
        session := { d.session with pending := [] }
        story := some p'
        outside := o } := by
      refine ⟨⟨hk.1, h.orderly, h.time, h.revealed⟩, h.phase, h.skip, fun hr' => ?_, h.reveals,
        h.idles, none, hunder, fun _ => by rw [hr]; rfl⟩
      rw [show d.session.revealing = true from hr'] at hr
      cases hr
    obtain ⟨hsteady', hf⟩ := ha.other (.choiceMade c) _ (Or.inr (Or.inr ⟨c, rfl⟩)) hsteady
    obtain ⟨d', t, he, hl⟩ := continueStory_lands hw ha hsteady' fun hcalm => Or.inr (by
      obtain ⟨o', heq, hk'⟩ := ha.calm hcalm (.choiceMade c) _ rfl hsteady.ok
      have hsight : S.sight o' = { S.sight d.outside with
          news := (S.sight d.outside).news ++ [.choiceMade c] } := (hk.trans hk').2
      have hcomp := hc hcalm
      have hm : d.session.moment = .pause := by simp [Session.moment, hact, hr]
      rw [heq]
      refine ⟨?_, ?_, hact, hr, rfl⟩
      · have hch := hcomp.chronicle
        unfold Venue.Chronicle at hch
        rw [hm, hstory] at hch
        show History S.course (S.sight o').news (S.sight o').bows (some p') .pause
        rw [hsight]
        exact hch.chosen (Story.Player.canContinue_of_choices (List.ne_nil_of_mem (hoffered hcalm)))
          htake
      · show (S.sight o').ears = 1
        rw [hsight]
        show (S.sight d.outside).ears = 1
        rw [hcomp.ears, hact]
        rfl)
    refine ⟨d', t, ?_, hl.after hf⟩
    simp only [hreports]
    exact he

theorem choose_lands (hw : S.Suits w) (ha : S.Attends w) (index : Json) (h : S.Steady d)
    (hc : S.calm → S.Composed d d.session.moment) :
    ∃ d' t, d.choose w index = (d', t) ∧ S.Lands d d' t := by
  unfold choose
  match hstory : d.story with
  | none => exact ⟨d, .done, rfl, stay h hc⟩
  | some p =>
    simp only
    split
    · exact ⟨d, .done, rfl, stay h hc⟩
    · next hact =>
      rw [Bool.not_eq_true, Bool.not_eq_false'] at hact
      split
      · exact reportChoice_lands hw _ _ h hc
      · next hr =>
        rw [Bool.not_eq_true] at hr
        have hfail (e : Misfit) : S.Lands d d (.failed (.misfit e)) :=
          ⟨h, .refl _, fun hcalm => ⟨hc hcalm, trivial⟩⟩
        match index.number with
        | .error e => exact ⟨d, _, rfl, hfail e⟩
        | .ok n =>
          simp only
          split
          · match index.count with
            | .error e => exact ⟨d, _, rfl, hfail e⟩
            | .ok i =>
              simp only
              match hget : d.session.pending[i.toNat]? with
              | none => exact ⟨d, .done, rfl, stay h hc⟩
              | some c =>
                exact take_lands hw ha h hact hr hc hstory (List.mem_of_getElem? hget)
          · exact reportChoice_lands hw _ _ h hc

omit [Clock τ] in
/-- The dialogue is broken off; no task of its own is left. -/
theorem shutdown_eq (w : Wiring τ ω) {P : Task τ (Activity Unit) → Activity Unit → Prop}
    (hos : d.scheduler.Orderly P) (hset : Settled d.scheduler d.reveal d.focus) :
    ∃ s, d.shutdown w = { d with
        session := d.session.reset
        scheduler := s
        reveal := none
        focus := none
        outside := w.unlisten d.outside } ∧
      s.Orderly P ∧ d.scheduler.Follows s ∧ Free s none none := by
  obtain ⟨s, hcancel, hos, hf, hfree⟩ := cancel_both w.stage (d := d.withOutside w.unlisten)
    hos hset
  refine ⟨s, ?_, hos, hf, hfree⟩
  unfold shutdown
  rw [hcancel]
  rfl

/-- The dialogue that was broken off is still, at whatever point of a command. -/
theorem shutdown_still (hw : S.Suits w) (h : S.Sane d)
    (hset : Settled d.scheduler d.reveal d.focus) :
    S.Still (d.shutdown w) ∧ d.scheduler.Follows (d.shutdown w).scheduler ∧
      (d.shutdown w).session = d.session.reset ∧
      S.Keeps (fun p => { p with ears := 0 }) d.outside (d.shutdown w).outside := by
  have hk := hw.unlisten d.outside h.ok
  obtain ⟨s, heq, hos, hf, hfree⟩ := shutdown_eq w h.orderly hset
  rw [heq]
  exact ⟨⟨⟨hk.1, hos, hf.time ▸ h.time, h.revealed⟩, rfl, rfl, hfree⟩, hf, rfl, hk⟩

theorem shutdown_lands (hw : S.Suits w) (h : S.Steady d)
    (hc : S.calm → S.Composed d d.session.moment) : S.Lands d (d.shutdown w) .done := by
  obtain ⟨hstill, hf, hsession, hk⟩ := shutdown_still hw h.toSane h.settled
  obtain ⟨line?, hunder, -⟩ := h.pace
  have hunder' : S.Under (d.shutdown w) line? :=
    hunder.follows ((congrArg Sight.news hk.2).trans rfl)
  refine ⟨hstill.steady (by rw [hsession]; exact nofun) hunder' (by rw [hsession]; exact nofun), hf,
    fun hcalm => ⟨?_, trivial⟩⟩
  have hcomp := hc hcalm
  refine .ofAway ?_ ?_ (by rw [hsession]; rfl) (by rw [hsession]; exact Or.inl rfl)
    (by rw [hsession]; rfl) hstill.free
  · obtain ⟨s, heq, -⟩ := shutdown_eq w h.orderly h.settled
    unfold Venue.Chronicle
    rw [show S.sight (d.shutdown w).outside = _ from hk.2, heq]
    refine History.dropped hcomp.chronicle ?_
    unfold Session.moment
    split
    · split <;> exact nofun
    · exact nofun
  · rw [show S.sight (d.shutdown w).outside = _ from hk.2]

/-- A story is begun; what is left to do is to go on. -/
theorem begin_opens (hw : S.Suits w) (ha : S.Attends w) {content : Json} {g : Story.Graph}
    (hg : Story.Graph.ofContent content = .ok g) (h : S.Steady d)
    (hact : d.session.active = false) :
    ∃ d', d.begin w content = d'.continueStory w ∧ S.Steady d' ∧
      d.scheduler.Follows d'.scheduler ∧ (S.calm → d'.story = some (Story.Player.start g).1 ∧
        d'.session = { d.session with active := true, phase := .idle } ∧
        S.sight d'.outside = { S.sight d.outside with
          news := (S.sight d.outside).news ++ [.plain .dialogueStarted]
          ears := (S.sight d.outside).ears + 1 }) := by
  have hr : d.session.revealing = false := by
    cases hr : d.session.revealing with
    | false => rfl
    | true =>
      rw [(h.shows hr).1] at hact
      cases hact
  obtain ⟨o, hreports, hk⟩ := hw.reportAll_eq (Story.Player.start g).2
    (d := { d with story := some (Story.Player.start g).1 }) h.ok
  obtain ⟨o₁, htheme, hk₁⟩ := hw.perform_eq
    (d := ({ d with
      story := some (Story.Player.start g).1
      outside := o } : Dialogue τ Unit ω).withSession fun s =>
        { s with active := true, phase := .idle }) hk.1 (.switchTheme "") nofun
  obtain ⟨o₂, hlisten, hk₂⟩ := hw.listen o₁ hk₁.1
  obtain ⟨line?, hunder, -⟩ := h.pace
  have hsteady : (S.heard (.plain .dialogueStarted)).Steady { d with
      session := { d.session with active := true, phase := .idle }
      story := some (Story.Player.start g).1
      outside := o₂ } := by
    refine ⟨⟨hk₂.1, h.orderly, h.time, h.revealed⟩, ?_, h.skip, fun hr' => ?_, h.reveals, h.idles,
      none, Venue.Under.heard (S := S) (hunder.outside
        ((congrArg Sight.news (hk.trans (hk₁.trans hk₂)).2).trans rfl)) rfl,
      fun _ => by rw [hr]; rfl⟩
    · rw [show (Phase.idle = .revealing) = False by simp, false_iff]
      exact fun hr' => by rw [show d.session.revealing = true from hr'] at hr; cases hr
    · rw [show d.session.revealing = true from hr'] at hr
      cases hr
  obtain ⟨hsteady', hf⟩ := ha.other (.plain .dialogueStarted) _ (Or.inl rfl) hsteady
  have hk₃ := hw.report (Log.info "Dialogue started") _ hsteady'.ok
  refine ⟨_, ?_, hsteady'.outside hk₃.sameView, hf, fun hcalm => ?_⟩
  · unfold Dialogue.begin
    rw [hact, hg]
    simp only [hreports]
    show ((perform w.stage (.switchTheme "") _).andThen _).turn _ = _
    rw [htheme, Attempt.andThen_none]
    simp only [attempt, hlisten, Attempt.turn]
    rfl
  · obtain ⟨o', heq, hk₄⟩ := ha.calm hcalm (.plain .dialogueStarted) _ rfl hsteady.ok
    have hsight := (hk.trans (hk₁.trans (hk₂.trans hk₄))).2
    refine ⟨by rw [heq], by rw [heq], hk₃.2.trans ?_⟩
    rw [heq]
    exact hsight

theorem begin_lands (hw : S.Suits w) (ha : S.Attends w) (content : Json) (h : S.Steady d)
    (hc : S.calm → S.Composed d d.session.moment)
    (hmay : S.calm → d.session.active = false → S.course.only = none) :
    ∃ d' t, d.begin w content = (d', t) ∧ S.Lands d d' t := by
  by_cases hact : d.session.active = true
  · unfold Dialogue.begin
    rw [if_pos hact]
    exact ⟨_, .done, rfl, (stay h hc).outside (hw.report _ _ h.ok)⟩
  · rw [Bool.not_eq_true] at hact
    match hg : Story.Graph.ofContent content with
    | .error e =>
      refine ⟨d, .unreadable e, ?_, h, .refl _, fun hcalm => ⟨hc hcalm, trivial⟩⟩
      unfold Dialogue.begin
      rw [hact, hg]
      rfl
    | .ok g =>
      obtain ⟨d₁, heq, hsteady, hf, hopens⟩ := begin_opens hw ha hg h hact
      obtain ⟨d', t, he, hl⟩ := continueStory_lands hw ha hsteady fun hcalm => Or.inr (by
        obtain ⟨hstory, hsession, hsight⟩ := hopens hcalm
        have hcomp := hc hcalm
        have hm : d.session.moment = .away := by simp [Session.moment, hact]
        refine ⟨?_, ?_, by rw [hsession], ?_, ?_⟩
        · have hch := hcomp.chronicle
          rw [hm] at hch
          unfold Venue.Chronicle
          rw [hsight, hstory]
          exact hch.begun (hmay hcalm hact) g
        · rw [hsight]
          show (S.sight d.outside).ears + 1 = 1
          rw [hcomp.ears, hact]
          rfl
        · cases hr : d.session.revealing with
          | false => rw [hsession]; exact hr
          | true =>
            rw [(h.shows hr).1] at hact
            cases hact
        · rw [hsession]
          exact (hcomp.resting hact).2.1)
      exact ⟨d', t, heq.trans he, hl.after hf⟩

end VisualNovel.Dialogue
