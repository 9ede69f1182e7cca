import VisualNovel.Proofs.Rehearsal.Hooks
/-!
# Busy rehearsals

In a busy rehearsal hooks give orders while events are delivered. An order that finds a steady
dialogue leaves a steady one behind (`deed_busy`), and so does an event whose delivery finds one,
together with the events that it brings about (`publish_busy`). A delivery takes some of the vigor of
the hooks or brings about no event, so a publication comes to its end and no event waits after it.
-/
namespace VisualNovel

namespace Rehearsal
open Stand (Near Sound newsOf Backstage)
variable {τ : Type} {n : Nat} {reading : τ → Prop} {K K' : Backstage τ → Prop}
  {R : List (Hook τ) → Prop} {rs : List (Role τ)} {d : Rehearsal τ}

/-! ## Venues -/

/-- The venue of a busy rehearsal with `n` slots, of which `K` is asked backstage. -/
def busyVenue (n : Nat) (reading : τ → Prop) (K : Backstage τ → Prop) : Venue τ (Stand τ) :=
  Stand.venue n False reading K ⟨none, 0⟩

/-- `R` holds of the hooks, and only events of the dialogue wait. -/
structure Served (R : List (Hook τ) → Prop) (b : Backstage τ) : Prop where
  hooks : R b.hooks
  queue : ∀ n ∈ b.queue, n.topic.isNovel = true

/-- The hooks have the roles `rs`. -/
def HasRoles (rs : List (Role τ)) (hooks : List (Hook τ)) : Prop :=
  hooks.map Stand.role = rs

/-- The hooks have the roles `rs`, and no event waits. -/
structure Vacant (rs : List (Role τ)) (b : Backstage τ) : Prop where
  hooks : HasRoles rs b.hooks
  queue : b.queue = []

/-- What is asked between two orders from outside. -/
structure Idle (rs : List (Role τ)) (b : Backstage τ) : Prop
    extends Vacant rs b where
  delivering : b.delivering = false

theorem Vacant.served {b : Backstage τ} (h : Vacant rs b) : Served (HasRoles rs) b :=
  ⟨h.hooks, fun n hn => by rw [h.queue] at hn; cases hn⟩

/-- What is asked backstage makes no difference to what a dialogue keeps. -/
theorem steady_recast (h : (busyVenue n reading K).Steady d) (hK : K' d.outside.backstage) :
    (busyVenue n reading K').Steady d :=
  ⟨⟨⟨h.ok.1, hK⟩, h.orderly, h.time, h.revealed⟩, h.phase, h.skip, h.shows, h.reveals, h.idles,
    h.pace⟩

theorem still_recast (h : (busyVenue n reading K).Still d) (hK : K' d.outside.backstage) :
    (busyVenue n reading K').Still d :=
  ⟨⟨⟨h.ok.1, hK⟩, h.orderly, h.time, h.revealed⟩, h.revealing, h.skip, h.free⟩

theorem busy_owned (hK : ∀ b es, K b → K { b with encores := es }) :
    Owned (busyVenue n reading K) :=
  owned (fun h => h.elim) (fun b _ rest hb _ => hK b rest hb) fun h => h.elim

variable [Clock τ] {interval : τ} (sound : Json)

omit [Clock τ] in
/-- While an event is being delivered, notices are queued. -/
theorem queue_attends : (busyVenue n reading (Served R)).Attends (wiring interval sound queue) := by
  refine Venue.Attends.ofOutside fun e d hnovel ho => ?_
  obtain ⟨hs, hR, hqueue⟩ := ho
  refine ⟨{ d.outside with bus := d.outside.bus.enqueue e }, rfl,
    ⟨⟨hs.slots, hs.view, hs.listed, hs.leads⟩, hR, fun e' he' => ?_⟩, ?_⟩
  · rcases List.mem_append.1 he' with he' | he'
    · exact hqueue e' he'
    · rw [List.mem_singleton.1 he']
      exact hnovel
  · show Stand.sight _ = { d.outside.sight with news := d.outside.published ++ [e] }
    have hlast : [e].filter (fun n : Notice => n.topic.isNovel) = [e] :=
      List.filter_cons_of_pos hnovel
    have hpub : Stand.published { d.outside with bus := d.outside.bus.enqueue e } =
        d.outside.published ++ [e] := by
      unfold Stand.published Bus.enqueue
      rw [List.filter_append, hlast, List.append_assoc]
      rfl
    unfold Stand.sight
    rw [hpub]
    rfl

/-- An order of a hook that finds a steady dialogue leaves one behind, and the hooks alone. -/
theorem deed_busy (hc : Clock.Runs interval reading) {o : Order τ} {deed : Deed}
    (ho : o.deed? = some deed) (h : (busyVenue n reading (Served (HasRoles rs))).Steady d) :
    let d' := (carryOut interval sound queue o d).1
    (busyVenue n reading (Served (HasRoles rs))).Steady d' ∧
      d.scheduler.Follows d'.scheduler ∧ d'.outside.hooks = d.outside.hooks := by
  have hfix : (busyVenue n reading (Served (· = d.outside.hooks))).Steady d :=
    steady_recast h ⟨rfl, h.ok.2.queue⟩
  obtain ⟨hl, -⟩ := deed_lands (Stand.suits hc n False _ _ sound queue) (queue_attends sound)
    (busy_owned fun _ _ hb => ⟨hb.hooks, hb.queue⟩) ho hfix fun hcalm => hcalm.elim
  obtain ⟨hhooks, hqueue⟩ := hl.steady.ok.2
  exact ⟨steady_recast hl.steady ⟨hhooks ▸ h.ok.2.hooks, hqueue⟩, hl.follows, hhooks⟩

/-! ## Cascades -/

/-- A dialogue that goes on from another one while events are delivered; `P` holds outside. -/
structure Serving (n : Nat) (reading : τ → Prop) (rs : List (Role τ))
    (P : Stand τ → Prop) (d d' : Rehearsal τ) : Prop where
  steady : (busyVenue n reading (Served (HasRoles rs))).Steady d'
  follows : d.scheduler.Follows d'.scheduler
  outside : P d'.outside

omit [Clock τ] in
theorem Serving.near {P Q : Stand τ → Prop} {d' : Rehearsal τ} {o : Stand τ}
    (h : Serving n reading rs P d d') (ho : Near [] d'.outside o) (hQ : Q o) :
    Serving n reading rs Q d { d' with outside := o } := by
  have hsight := ho.sight_nil
  refine ⟨h.steady.outside ⟨⟨ho.sound h.steady.ok.1, ho.roles.trans h.steady.ok.2.hooks,
    fun e he => h.steady.ok.2.queue e (show e ∈ d'.outside.bus.queue from ho.queue ▸ he)⟩,
    ?_, ?_, ?_⟩, h.follows, hQ⟩
  · exact congrArg Sight.line hsight
  · exact congrArg Sight.offered hsight
  · exact congrArg Sight.news hsight

/-- Hooks may give any orders to a steady dialogue. -/
theorem bears_serving (hc : Clock.Runs interval reading) (t : Topic) {P Q : Stand τ → Prop}
    (hnear : ∀ s o, P s → Near [] s o → P o)
    (hacts : ∀ s o, P s → Near [] s o → o.vigor < s.vigor → Q o)
    (hhooks : ∀ s o, Q s → o.hooks = s.hooks → Q o) (hrests : ∀ s, Q s → P s)
    (d : Rehearsal τ) :
    Bears interval sound (fun _ => True) t rs (Serving n reading rs P d)
      (Serving n reading rs Q d) where
  roles _ h := h.steady.ok.2.hooks
  near d' o h ho := h.near ho (hnear _ _ h.outside ho)
  acts d' o h ho hv := h.near ho (hacts _ _ h.outside ho hv)
  deed o deed d' ho _ h := by
    obtain ⟨hsteady, hf, hsame⟩ := deed_busy sound hc ho h.steady
    exact ⟨hsteady, h.follows.trans hf, hhooks _ _ h.outside hsame⟩
  rests d' h := ⟨h.steady, h.follows, hrests _ h.outside⟩

variable (hc : Clock.Runs interval reading)
  (hsteps : ∀ r ∈ rs, ∀ left, ∀ step ∈ r.2 left, step.Within fun _ => True)

include hc hsteps in
/-- The first event that waits is delivered. If that brings about an event, hooks have lost some of
their vigor. -/
theorem deliver_waiting (h : (busyVenue n reading (Served (HasRoles rs))).Steady d) {e : Notice}
    {rest : List Notice} (hq : d.outside.bus.queue = e :: rest) :
    let x := exchange interval sound
    Serving n reading rs
      (fun o => o.vigor < d.outside.vigor ∨ o.vigor = d.outside.vigor ∧ o.bus.queue = rest) d
      (x.deliver e (x.modify (fun b => { b with queue := rest }) d)).1 := by
  intro x
  have hnovel : e.topic.isNovel = true := h.ok.2.queue e (by
    show e ∈ d.outside.bus.queue
    rw [hq]
    exact List.mem_cons_self ..)
  have hrest (e' : Notice) (he' : e' ∈ rest) : e'.topic.isNovel = true := h.ok.2.queue e' (by
    show e' ∈ d.outside.bus.queue
    rw [hq]
    exact List.mem_cons_of_mem _ he')
  have hs : Sound n { d.outside with bus := { d.outside.bus with queue := rest } } :=
    ⟨h.ok.1.slots, h.ok.1.view, h.ok.1.listed, h.ok.1.leads⟩
  have hmark := Stand.recorder_near e { d.outside with bus := { d.outside.bus with queue := rest } }
  -- The event is published all the time: it waited, and now there is the recorder's mark of it.
  have hnews : Stand.sight ({ d.outside with
      bus := { d.outside.bus with queue := rest } }.leave (.notice e)) = d.outside.sight := by
    have hpub : d.outside.published = d.outside.news ++ [e] ++
        rest.filter fun n => n.topic.isNovel := by
      unfold Stand.published
      rw [hq, List.filter_cons_of_pos (p := fun n : Notice => n.topic.isNovel) hnovel,
        List.append_assoc]
      rfl
    rw [hmark.sight, newsOf, if_pos hnovel]
    unfold Stand.sight
    rw [hpub]
    rfl
  refine deliver_bears (bears_serving sound hc e.topic
    (Q := fun o => o.vigor < d.outside.vigor) ?_ ?_ ?_ (fun _ => Or.inl) d)
    (fun r hr _ => hsteps r hr) rfl hs (fun hears => absurd hears (deaf_of_novel hs hnovel))
    ⟨h.outside ⟨⟨hmark.sound hs, h.ok.2.hooks, hrest⟩, ?_, ?_, ?_⟩, .refl _, Or.inr ⟨rfl, rfl⟩⟩
  · rintro s o (hlt | ⟨heq, hqueue⟩) ho
    · exact Or.inl (Nat.lt_of_le_of_lt ho.vigor hlt)
    · rcases Nat.lt_or_eq_of_le ho.vigor with hlt | hsame
      · exact Or.inl (heq ▸ hlt)
      · exact Or.inr ⟨hsame.trans heq, ho.queue.trans hqueue⟩
  · rintro s o (hlt | ⟨heq, -⟩) - hv
    · exact Nat.lt_trans hv hlt
    · exact heq ▸ hv
  · intro s o hlt hsame
    unfold Stand.vigor at hlt ⊢
    rw [hsame]
    exact hlt
  · exact congrArg Sight.line hnews
  · exact congrArg Sight.offered hnews
  · exact congrArg Sight.news hnews

include hc hsteps in
/-- The events that wait are delivered, and those that they bring about, until none is left. -/
theorem exhaust_busy (h : (busyVenue n reading (Served (HasRoles rs))).Steady d)
    (hidle : d.outside.bus.delivering = false) {rounds : Nat} (hrounds : d.outside.vigor < rounds) :
    Serving n reading rs (fun o => o.bus.queue = [] ∧ o.bus.delivering = false) d
      ((exchange interval sound).exhaust rounds d) := by
  let x := exchange interval sound
  let J (c : Rehearsal τ) : Prop := Serving n reading rs (fun o => o.bus.delivering = false) d c
  have hdeliver (c : Rehearsal τ) (e : Notice) (rest : List Notice) (hJ : J c)
      (hq : (x.bus c).queue = e :: rest) :
      let c' := (x.deliver e (x.modify (fun b => { b with queue := rest }) c)).1
      J c' ∧ (c'.outside.vigor < c.outside.vigor ∨
        c'.outside.vigor = c.outside.vigor ∧ (x.bus c').queue = rest) := by
    have hdone := deliver_waiting sound hc hsteps hJ.steady hq
    exact ⟨⟨hdone.steady, hJ.follows.trans hdone.follows,
      Exchange.delivering_deliver (x := x) (fun _ _ => rfl) _⟩, hdone.outside⟩
  let vigor (c : Rehearsal τ) : Nat := c.outside.vigor
  have hdrain := Exchange.drain_keeps (x := x) (J := J) (m := vigor) hdeliver
  obtain ⟨hJ, hnil⟩ := Exchange.exhaust_settles (x := x) (J := J) (m := vigor) hdrain rounds d
    ⟨h, .refl _, hidle⟩ hrounds
  exact ⟨hJ.steady, hJ.follows, hnil, hJ.outside⟩

include hc hsteps in
/-- An event that finds a steady dialogue when it has been written down leaves a steady one behind
when it was published, and no event waits. -/
theorem publish_busy (hidle : Idle rs d.outside.backstage) {e : Notice}
    (h : (busyVenue n reading (Served (HasRoles rs))).Steady
      (d.withOutside (Stand.leave (.notice e)))) :
    (busyVenue n reading (Idle rs)).Steady (publish interval sound e d).1 ∧
      d.scheduler.Follows (publish interval sound e d).1.scheduler := by
  have hs : Sound n d.outside := ⟨h.ok.1.slots, h.ok.1.view, h.ok.1.listed, h.ok.1.leads⟩
  -- The dialogue may hear of this one event, and only hooks of those that it brings about; so the
  -- vigor of the hooks bounds the rounds that follow.
  have hdelivered : Serving n reading rs (fun o => o.vigor ≤ d.outside.vigor) d
      ((exchange interval sound).deliver e d).1 := by
    refine deliver_bears (bears_serving sound hc e.topic
      (Q := fun o => o.vigor ≤ d.outside.vigor) (fun s o hle ho => Nat.le_trans ho.vigor hle)
      (fun s o hle ho _ => Nat.le_trans ho.vigor hle) (fun s o hle hsame => ?_)
      (fun _ hle => hle) d)
      (fun r hr _ => hsteps r hr) rfl hs (fun _ c hJ => ?_) ⟨h, .refl _, Nat.le_refl _⟩
    · unfold Stand.vigor at hle ⊢
      rw [hsame]
      exact hle
    · obtain ⟨hsteady, hf, hsame⟩ := deed_busy sound (o := .advance) hc rfl hJ.steady
      refine ⟨hsteady, hJ.follows.trans hf, ?_⟩
      have hle : c.outside.vigor ≤ d.outside.vigor := hJ.outside
      unfold Stand.vigor at hle ⊢
      rw [hsame]
      exact hle
  have hdelivering := Exchange.delivering_deliver (x := exchange interval sound) (e := e)
    (fun _ _ => rfl) d
  have hrounds : ((exchange interval sound).deliver e d).1.outside.vigor < d.patience := by
    have hle : ((exchange interval sound).deliver e d).1.outside.vigor ≤ d.outside.vigor :=
      hdelivered.outside
    unfold patience Exchange.cascadeLimit
    omega
  have hdone := exhaust_busy sound hc hsteps hdelivered.steady hdelivering hrounds
  have hpub : (publish interval sound e d).1 = ((exchange interval sound).exhaust d.patience
      ((exchange interval sound).deliver e d).1).withOutside
        fun s => { s with bus := s.bus.rest } := by
    have hfree : ((exchange interval sound).bus d).delivering = false := hidle.delivering
    unfold publish Exchange.publishUpTo
    rw [if_neg (by rw [hfree]; exact Bool.false_ne_true)]
    rfl
  rw [hpub]
  have hrest := hdone.near (Q := fun o => o.bus.queue = [] ∧ o.bus.delivering = false)
    (.ofBus (b := Bus.rest _) ⟨fun _ => rfl, rfl⟩) hdone.outside
  exact ⟨steady_recast hrest.steady ⟨⟨hrest.steady.ok.2.hooks, hrest.outside.1⟩, hrest.outside.2⟩,
    hdelivered.follows.trans hrest.follows⟩

end Rehearsal
end VisualNovel
