import VisualNovel.Proofs.Rehearsal.Busy
/-!
# Hazards

Some events are published where a command is half done: a line was fetched and is not being revealed
yet, it was revealed and the choices are yet to be offered, or they were offered and the focus is yet
to be handed to them. There a hook must not ask for everything (`Hazard`). If no hook asks for
what is hazardous, then what its command relies on holds after every publication (`attends_busy`).
-/
namespace VisualNovel

/-- What a hook must not ask for while an event of a topic is being delivered. -/
inductive Hazard : Topic → Deed → Prop where
  /-- The next line is fetched before the last one begins to be revealed. -/
  | goOnAtStart : Hazard .lineStarted .goOn
  | advanceAtStart : Hazard .lineStarted .advance
  /-- The line is revealed although the dialogue was broken off. -/
  | shutdownAtStart : Hazard .lineStarted .shutdown
  /-- The choices are offered while the next line is being revealed. -/
  | goOnAtEnd : Hazard .lineRevealed .goOn
  | advanceAtEnd : Hazard .lineRevealed .advance
  /-- The next line is revealed while the last one may not be done with. -/
  | chooseAtOffer : Hazard .choicesShown .choose

namespace Rehearsal
open Stand (Near Sound Backstage)
variable {τ : Type} {n : Nat} {reading : τ → Prop} {rs : List (Role τ)} {d : Rehearsal τ}
  {e : Notice}

/-! ## Where no event waits -/

theorem keeps_near {s o : Stand τ} (h : (busyVenue n reading (Vacant rs)).ok s) (ho : Near [] s o) :
    (busyVenue n reading (Vacant rs)).Keeps id s o :=
  ⟨⟨ho.sound h.1, ho.roles.trans h.2.hooks, ho.queue.trans h.2.queue⟩, ho.sight_nil⟩

/-- An event that is delivered while no event waits has been published. -/
theorem keeps_notice {s : Stand τ} (h : (busyVenue n reading (Vacant rs)).ok s)
    (he : e.topic.isNovel = true) :
    (busyVenue n reading (Vacant rs)).Keeps (fun p => { p with news := p.news ++ [e] }) s
      (s.leave (.notice e)) := by
  have hmark := Stand.recorder_near e s
  exact ⟨⟨hmark.sound h.1, hmark.roles.trans h.2.hooks, hmark.queue.trans h.2.queue⟩,
    hmark.sight_of_novel he h.2.queue⟩

/-! ## Commands that are half done -/

variable [Clock τ] {interval : τ} {sound : Json} (hc : Clock.Runs interval reading)
  (hbound : ∀ r ∈ rs, ∀ left, ∀ step ∈ r.2 left, step.Within fun deed => ¬Hazard r.1 deed)

include hbound in
/-- What marks keep and what orders keep that are not hazardous, a publication keeps whose delivery
brings about no event. -/
theorem publish_vacant {J : Rehearsal τ → Prop}
    (hok : ∀ c, J c → (busyVenue n reading (Vacant rs)).ok c.outside)
    (hmark : ∀ c o, J c → (busyVenue n reading (Vacant rs)).Keeps id c.outside o →
      J { c with outside := o })
    (hdeed : ∀ o deed c, o.deed? = some deed → ¬Hazard e.topic deed → J c →
      J (carryOut interval sound queue o c).1)
    (ho : (busyVenue n reading (Idle rs)).ok d.outside) (he : e.topic.isNovel = true)
    (h : J (d.withOutside (Stand.leave (.notice e)))) :
    J (publish interval sound e d).1 ∧
      Idle rs (publish interval sound e d).1.outside.backstage := by
  have hnear (c : Rehearsal τ) (o : Stand τ) (hJ : J c) (hn : Near [] c.outside o) :
      J { c with outside := o } := hmark c o hJ (keeps_near (hok c hJ) hn)
  have hb : Bears interval sound (fun deed => ¬Hazard e.topic deed) e.topic rs J J :=
    ⟨fun c hJ => (hok c hJ).2.hooks, hnear, fun c o hJ hn _ => hnear c o hJ hn, hdeed,
      fun _ hJ => hJ⟩
  obtain ⟨hJ, hdel⟩ := publish_bears hb (fun r hr ht => ht ▸ hbound r hr) rfl ho.1
    (fun hears => absurd hears (deaf_of_novel ho.1 he)) (fun c hJ => (hok c hJ).2.queue)
    ho.2.delivering h
  exact ⟨hJ, (hok _ hJ).2, hdel⟩

include hc hbound in
/-- While a line is announced, hooks may make choices only, and there are none to make. -/
theorem lineStarted_busy (ho : (busyVenue n reading (Idle rs)).ok d.outside)
    (hp : d.session.pending = []) (text : String) (tags : List String) :
    ∃ o, (publish interval sound (.lineStarted text tags) d).1 = { d with outside := o } ∧
      (busyVenue n reading (Idle rs)).Keeps
        (fun p => { p with news := p.news ++ [.lineStarted text tags] }) d.outside o := by
  let V := busyVenue n reading (Vacant rs)
  let J (c : Rehearsal τ) : Prop := ∃ o, c = { d with outside := o } ∧
    V.Keeps (fun p => { p with news := p.news ++ [.lineStarted text tags] }) d.outside o
  have hok (c : Rehearsal τ) (hJ : J c) : V.ok c.outside := by
    obtain ⟨o, rfl, hk⟩ := hJ
    exact hk.1
  have hmark (c : Rehearsal τ) (o : Stand τ) (hJ : J c) (hk : V.Keeps id c.outside o) :
      J { c with outside := o } := by
    obtain ⟨o', rfl, hk'⟩ := hJ
    exact ⟨o, rfl, hk'.trans hk⟩
  have hdeed (o : Order τ) (deed : Deed) (c : Rehearsal τ) (hd : o.deed? = some deed)
      (hsafe : ¬Hazard .lineStarted deed) (hJ : J c) :
      J (carryOut interval sound queue o c).1 := by
    obtain ⟨o', rfl, hk⟩ := hJ
    cases o with
    | choose index =>
      have hw := Stand.suits hc n False (Vacant rs) ⟨none, 0⟩ sound queue
      obtain ⟨o'', t, he, ht, hk'⟩ := Dialogue.choose_unoffered hw index
        (d := { d with outside := o' }) hk.1 hp
      refine ⟨o'', ?_, hk.trans hk'⟩
      unfold carryOut
      simp only [he]
      exact conclude_of_ne _ ht _
    | goOn => cases hd; exact absurd .goOnAtStart hsafe
    | advance => cases hd; exact absurd .advanceAtStart hsafe
    | shutdown => cases hd; exact absurd .shutdownAtStart hsafe
    | begin | update | act | move => cases hd
  have hvacant : V.ok d.outside := ⟨ho.1, ho.2.toVacant⟩
  obtain ⟨⟨o, heq, hk⟩, hidle⟩ := publish_vacant hbound hok hmark hdeed ho rfl
    ⟨_, rfl, keeps_notice hvacant rfl⟩
  rw [heq] at hidle
  exact ⟨o, heq, ⟨hk.1.1, hidle⟩, hk.2⟩

include hc hbound in
/-- While a line that was revealed is announced, hooks may make choices, of which there are none, or
break the dialogue off. -/
theorem lineRevealed_busy (h : (busyVenue n reading (Idle rs)).Still d) {text : String}
    (hu : ((busyVenue n reading (Idle rs)).heard (.lineRevealed text)).Under d none)
    (hp : d.session.pending = []) :
    let d' := (publish interval sound (.lineRevealed text) d).1
    (busyVenue n reading (Idle rs)).Still d' ∧ (busyVenue n reading (Idle rs)).Under d' none ∧
      d'.session.pending = [] ∧ d.scheduler.Follows d'.scheduler := by
  let V := busyVenue n reading (Vacant rs)
  have hw := Stand.suits hc n False (Vacant rs) ⟨none, 0⟩ sound queue
  let J (c : Rehearsal τ) : Prop := V.Still c ∧ V.Under c none ∧ c.session.pending = [] ∧
    d.scheduler.Follows c.scheduler
  have hmark (c : Rehearsal τ) (o : Stand τ) (hJ : J c) (hk : V.Keeps id c.outside o) :
      J { c with outside := o } :=
    ⟨hJ.1.outside hk.1, hJ.2.1.outside (congrArg Sight.news hk.2), hJ.2.2⟩
  have hdeed (o : Order τ) (deed : Deed) (c : Rehearsal τ) (hd : o.deed? = some deed)
      (hsafe : ¬Hazard .lineRevealed deed) (hJ : J c) :
      J (carryOut interval sound queue o c).1 := by
    obtain ⟨hstill, hunder, hpending, hf⟩ := hJ
    cases o with
    | choose index =>
      obtain ⟨o', t, he, ht, hk⟩ := Dialogue.choose_unoffered hw index hstill.ok hpending
      unfold carryOut
      simp only [he]
      rw [conclude_of_ne _ ht]
      exact hmark c o' ⟨hstill, hunder, hpending, hf⟩ hk
    | shutdown =>
      obtain ⟨hstill', hf', hsession, hk⟩ := Dialogue.shutdown_still hw hstill.toSane
        (Or.inl hstill.free)
      refine ⟨hstill', hunder.follows ((congrArg Sight.news hk.2).trans rfl), ?_, hf.trans hf'⟩
      show (Dialogue.shutdown _ c).session.pending = []
      rw [hsession]
      rfl
    | goOn => cases hd; exact absurd .goOnAtEnd hsafe
    | advance => cases hd; exact absurd .advanceAtEnd hsafe
    | begin | update | act | move => cases hd
  have ho : V.ok d.outside := ⟨h.ok.1, h.ok.2.toVacant⟩
  have hk := keeps_notice (e := .lineRevealed text) ho rfl
  obtain ⟨⟨hstill, hunder, hpending, hf⟩, hidle⟩ := publish_vacant hbound
    (fun c hJ => hJ.1.ok) hmark hdeed h.ok rfl
    ⟨(still_recast h h.ok.2.toVacant).outside hk.1, Venue.Under.ofHeard (S := V) hu hk, hp, .refl _⟩
  exact ⟨still_recast hstill hidle, hunder, hpending, hf⟩

include hc hbound in
/-- While choices are announced, hooks may tell the dialogue to go on, of which it takes no heed, or
break it off. -/
theorem choicesShown_busy (h : (busyVenue n reading (Idle rs)).Still d) {cs : List Choice}
    (hu : ((busyVenue n reading (Idle rs)).heard (.choicesShown cs)).Under d none)
    (hphase : d.session.phase ≠ .revealing) (hheed : Venue.Heedless d) :
    let d' := (publish interval sound (.choicesShown cs) d).1
    (busyVenue n reading (Idle rs)).Still d' ∧ (busyVenue n reading (Idle rs)).Under d' none ∧
      d'.session.phase ≠ .revealing ∧ d.scheduler.Follows d'.scheduler := by
  let V := busyVenue n reading (Vacant rs)
  have hw := Stand.suits hc n False (Vacant rs) ⟨none, 0⟩ sound queue
  let J (c : Rehearsal τ) : Prop := V.Still c ∧ V.Under c none ∧ c.session.phase ≠ .revealing ∧
    Venue.Heedless c ∧ d.scheduler.Follows c.scheduler
  have hmark (c : Rehearsal τ) (o : Stand τ) (hJ : J c) (hk : V.Keeps id c.outside o) :
      J { c with outside := o } :=
    ⟨hJ.1.outside hk.1, hJ.2.1.outside (congrArg Sight.news hk.2), hJ.2.2⟩
  have hdeed (o : Order τ) (deed : Deed) (c : Rehearsal τ) (hd : o.deed? = some deed)
      (hsafe : ¬Hazard .choicesShown deed) (hJ : J c) :
      J (carryOut interval sound queue o c).1 := by
    obtain ⟨hstill, hunder, hphase, hheed, hf⟩ := hJ
    cases o with
    | goOn =>
      unfold carryOut
      simp only [Dialogue.continueStory_heedless _ hheed]
      rw [conclude_done]
      exact ⟨hstill, hunder, hphase, hheed, hf⟩
    | advance =>
      unfold carryOut
      simp only [Dialogue.advance_heedless _ hheed fun _ => hstill.revealing]
      rw [conclude_done]
      exact ⟨hstill, hunder, hphase, hheed, hf⟩
    | shutdown =>
      obtain ⟨hstill', hf', hsession, hk⟩ := Dialogue.shutdown_still hw hstill.toSane
        (Or.inl hstill.free)
      have hreset : (carryOut interval sound queue .shutdown c).1.session = c.session.reset :=
        hsession
      refine ⟨hstill', hunder.follows ((congrArg Sight.news hk.2).trans rfl), ?_, fun hact => ?_,
        hf.trans hf'⟩
      · rw [hreset]
        exact nofun
      · rw [hreset] at hact
        cases hact
    | choose => cases hd; exact absurd .chooseAtOffer hsafe
    | begin | update | act | move => cases hd
  have ho : V.ok d.outside := ⟨h.ok.1, h.ok.2.toVacant⟩
  have hk := keeps_notice (e := .choicesShown cs) ho rfl
  obtain ⟨⟨hstill, hunder, hphase', -, hf⟩, hidle⟩ := publish_vacant hbound
    (fun c hJ => hJ.1.ok) hmark hdeed h.ok rfl
    ⟨(still_recast h h.ok.2.toVacant).outside hk.1, Venue.Under.ofHeard (S := V) hu hk, hphase,
      hheed, .refl _⟩
  exact ⟨still_recast hstill hidle, hunder, hphase', hf⟩

/-! ## The venue of a busy rehearsal -/

omit [Clock τ] in
/-- A dialogue that is steady when it has heard of an event is so when the event has been written
down. -/
theorem steady_of_heard (h : ((busyVenue n reading (Idle rs)).heard e).Steady d)
    (he : e.topic.isNovel = true) :
    (busyVenue n reading (Served (HasRoles rs))).Steady
      (d.withOutside (Stand.leave (.notice e))) := by
  obtain ⟨hs, hidle⟩ := h.ok
  have ho : (busyVenue n reading (Vacant rs)).ok d.outside := ⟨hs, hidle.toVacant⟩
  have hk := keeps_notice ho he
  have hsight : (d.outside.leave (.notice e)).sight = _ := hk.2
  refine ⟨⟨⟨hk.1.1, hk.1.2.served⟩, h.orderly, h.time, h.revealed⟩, h.phase, h.skip, fun hr => ?_,
    h.reveals, h.idles, ?_⟩
  · show _ ∧ _ ∧ (d.outside.leave (.notice e)).sight.line = _ ∧
      (d.outside.leave (.notice e)).sight.offered = _
    rw [hsight]
    exact h.shows hr
  · obtain ⟨line?, hu, hl⟩ := h.pace
    exact ⟨line?, Venue.Under.ofHeard (S := busyVenue n reading (Vacant rs)) hu hk, hl⟩

include hc hbound in
/-- The venue of a busy rehearsal is attended if its hooks do not ask for what is hazardous. -/
theorem attends_busy : (busyVenue n reading (Idle rs)).Attends
    (wiring interval sound (publish interval sound)) where
  calm h := h.elim
  lineStarted text tags _ ho _ _ hp := lineStarted_busy hc hbound ho hp text tags
  lineRevealed _ _ h hu hp := lineRevealed_busy hc hbound h hu hp
  choicesShown _ _ h hu hphase hheed := choicesShown_busy hc hbound h hu hphase hheed
  other e d he h := by
    have hnovel : e.topic.isNovel = true := by
      rcases he with rfl | rfl | ⟨c, rfl⟩ <;> rfl
    exact publish_busy sound hc (fun r hr left step hstep => (hbound r hr left step hstep).mono
      fun _ _ => trivial) h.ok.2 (steady_of_heard h hnovel)

end Rehearsal
end VisualNovel
