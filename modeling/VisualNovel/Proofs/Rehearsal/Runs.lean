import VisualNovel.Proofs.Rehearsal.Hooks
/-!
# Runs of a rehearsal

In a calm rehearsal no hook gives orders: a hook may consume an event, and that is all. Then to
publish an event adds it to what can be seen of the dialogue and changes nothing else of it
(`publish_near`), so the venue of a calm rehearsal is attended (`attends`).

A rehearsal is opened in fresh surroundings (`Stand.IsFresh`) and then given orders one after the
other (`Rehearsal.rehearse`). What every order keeps holds after all of them (`rehearse_keeps`); a
rehearsal that was just opened rests (`opened_rests`).
-/
namespace VisualNovel

/-- A hook that gives no orders. -/
def Hook.IsQuiet (h : Hook τ) : Prop := ∀ left, ∀ step ∈ h.steps left, step = .consume

namespace Rehearsal
open Stand (Near Sound newsOf)
variable {τ : Type} [Clock τ] {interval : τ} {sound : Json} {d : Rehearsal τ}

/-! ## Hooks that give no orders -/

omit [Clock τ] in
/-- Hooks that are given no orders are given none later. -/
theorem quiet_of_near {ns : List Notice} {s o : Stand τ} (h : Near ns s o)
    (hq : ∀ k ∈ s.hooks, k.IsQuiet) : ∀ k ∈ o.hooks, k.IsQuiet := by
  intro k hk
  have hmem : Stand.role k ∈ s.hooks.map Stand.role := by
    rw [show s.hooks.map Stand.role = _ from h.roles.symm]
    exact List.mem_map_of_mem hk
  obtain ⟨k', hk', hrole⟩ := List.mem_map.1 hmem
  have hsteps : k'.steps = k.steps := congrArg Prod.snd hrole
  intro left step hstep
  exact hq k' hk' left step (hsteps ▸ hstep)

/-- An event is published to hooks that give no orders; the dialogue does not hear of it. -/
theorem publish_near (interval : τ) (sound : Json) {slots : Nat} (hs : Sound slots d.outside)
    (hq : ∀ k ∈ d.outside.hooks, k.IsQuiet) (hqueue : d.outside.bus.queue = [])
    (hidle : d.outside.bus.delivering = false) (n : Notice)
    (hdeaf : ¬∃ e ∈ d.outside.bus.table n.topic, e.handler = .dialogue) :
    ∃ o, (publish interval sound n d).1 = { d with outside := o } ∧
      Near (newsOf n) d.outside o ∧ o.bus.delivering = false := by
  let J (c : Rehearsal τ) : Prop := ∃ o, c = { d with outside := o } ∧ Near (newsOf n) d.outside o
  have hnear (c : Rehearsal τ) (o : Stand τ) (hc : J c) (hn : Near [] c.outside o) :
      J { c with outside := o } := by
    obtain ⟨o', rfl, ho'⟩ := hc
    exact ⟨o, rfl, by simpa using ho'.trans hn⟩
  have hb : Bears interval sound (fun _ => False) n.topic d.outside.roles J J := by
    refine ⟨fun c hc => ?_, hnear, fun c o hc hn _ => hnear c o hc hn, fun _ _ _ _ hno => hno.elim,
      fun _ hc => hc⟩
    obtain ⟨o, rfl, ho⟩ := hc
    exact ho.roles
  have hwithin (r : Role τ) (hr : r ∈ d.outside.roles)
      (_ : r.1 = n.topic) (left : Nat) (step : HookStep τ) (hstep : step ∈ r.2 left) :
      step.Within fun _ => False := by
    obtain ⟨k, hk, rfl⟩ := List.mem_map.1 hr
    rw [hq k hk left step hstep]
    trivial
  obtain ⟨⟨o, ho, hn⟩, hdel⟩ := publish_bears hb hwithin rfl hs (fun h => absurd h hdeaf)
    (fun c hc => by
      obtain ⟨o, rfl, ho⟩ := hc
      exact ho.queue.trans hqueue) hidle ⟨_, rfl, Stand.recorder_near n d.outside⟩
  refine ⟨o, ho, hn, ?_⟩
  rw [ho] at hdel
  exact hdel

/-! ## The venue of a calm rehearsal -/

variable {n : Nat} {reading : τ → Prop} {c : Course}

/-- No event waits, no hook gives orders, and only what a course allows follows an end. -/
structure Hushed (c : Course) (b : Stand.Backstage τ) : Prop where
  queue : b.queue = []
  delivering : b.delivering = false
  noticesEnd : c.bow = b.noticesEnd.toNat
  hooks : ∀ k ∈ b.hooks, k.IsQuiet
  encores : b.encores ≠ [] → c.only = none

/-- The venue of a calm rehearsal with `n` slots. -/
def calmVenue (n : Nat) (reading : τ → Prop) (c : Course) : Venue τ (Stand τ) :=
  Stand.venue n True reading (Hushed c) c

omit [Clock τ] in
theorem calm_owned : Owned (calmVenue n reading c) := by
  refine owned (fun _ b hb => hb.noticesEnd) (fun b m rest hb hm => ?_) fun _ b hb => hb.encores
  exact ⟨hb.queue, hb.delivering, hb.noticesEnd, hb.hooks, fun _ =>
    hb.encores (by rw [hm]; exact List.cons_ne_nil _ _)⟩

omit [Clock τ] in
theorem Hushed.near {ns : List Notice} {o : Stand τ} (h : Hushed c d.outside.backstage)
    (hn : Near ns d.outside o) (hd : o.bus.delivering = false) :
    Hushed c o.backstage where
  queue := hn.queue.trans h.queue
  delivering := hd
  noticesEnd := h.noticesEnd.trans (congrArg Bool.toNat hn.noticesEnd).symm
  hooks := quiet_of_near hn h.hooks
  encores hne := h.encores fun hnil => hne (hn.encores.trans hnil)

omit [Clock τ] in
/-- Every event of a calm rehearsal was delivered. -/
theorem Hushed.news {s : Stand τ} (h : Hushed c s.backstage) : s.sight.news = s.news := by
  show s.news ++ s.bus.queue.filter _ = s.news
  rw [show s.bus.queue = [] from h.queue]
  exact List.append_nil _

/-- The venue of a calm rehearsal is attended. -/
theorem attends (interval : τ) (sound : Json) : (calmVenue n reading c).Attends
    (wiring interval sound (publish interval sound)) := by
  refine Venue.Attends.ofOutside fun e d hnovel ho => ?_
  obtain ⟨hs, hh⟩ := ho
  obtain ⟨o, hp, hn, hdel⟩ := publish_near interval sound hs hh.hooks hh.queue hh.delivering e
    (deaf_of_novel hs hnovel)
  exact ⟨o, hp, ⟨hn.sound hs, hh.near hn hdel⟩, hn.sight_of_novel hnovel hh.queue⟩

omit [Clock τ] in
/-- What was delivered in a calm rehearsal is a history. -/
theorem history_of_rests (h : Dialogue.Resting (calmVenue n reading c) d) :
    History c d.outside.news d.outside.bows d.story d.session.moment := by
  have hch := (h.calm trivial).chronicle
  unfold Venue.Chronicle at hch
  rw [show ((calmVenue n reading c).sight d.outside).news = _ from h.steady.ok.2.news] at hch
  exact hch

end Rehearsal
namespace Stand
variable {τ : Type} {n : Nat} {s : Stand τ}

/-- Surroundings with `n` slots in which nothing has happened. The hooks have integers for their
priorities, and none of them comes before the recorder. -/
structure IsFresh (n : Nat) (s : Stand τ) : Prop where
  bus : s.bus = {}
  marks : s.marks = []
  slots : s.slots = .count n
  view : ∀ v, s.view = some v → v.slots = .count n
  hooks : ∀ k ∈ s.hooks, ∃ m : Int, k.priority = .int m ∧ m ≤ 1000000000

/-- Surroundings in which a calm rehearsal is opened: no hook gives orders. -/
structure IsCalm (n : Nat) (s : Stand τ) : Prop extends IsFresh n s where
  quiet : ∀ k ∈ s.hooks, k.IsQuiet

/-- The recorder is subscribed to topics that nobody is subscribed to. -/
theorem record_eq (ts : List Topic) (hts : ts.Nodup) (hnil : ∀ t ∈ ts, s.bus.table t = []) :
    ∃ b, Attempt.inTurn (subscribe · recorderPriority .recorder) ts s =
        ({ s with bus := b }, none) ∧
      (∀ t, b.table t = if t ∈ ts then [recorderEntry] else s.bus.table t) ∧
      b.queue = s.bus.queue ∧ b.delivering = s.bus.delivering := by
  induction ts generalizing s with
  | nil => exact ⟨s.bus, rfl, fun t => by simp, rfl, rfl⟩
  | cons t ts ih =>
    obtain ⟨hnew, hnodup⟩ := List.nodup_cons.1 hts
    have hsubscribe : s.subscribe t recorderPriority .recorder =
        ({ s with bus := s.bus.setTable t [recorderEntry] }, none) := by
      unfold subscribe Bus.subscribe
      rw [hnil t (List.mem_cons_self ..)]
      rfl
    have htable (t' : Topic) := Bus.table_setTable s.bus t [recorderEntry] t'
    obtain ⟨b, hb, hall, hqueue, hdelivering⟩ := ih (s := { s with
        bus := s.bus.setTable t [recorderEntry] }) hnodup fun t' ht' => by
      show Bus.table _ t' = []
      rw [htable, if_neg (fun heq : t' = t => hnew (heq ▸ ht'))]
      exact hnil t' (List.mem_cons_of_mem _ ht')
    refine ⟨b, ?_, fun t' => ?_, hqueue, hdelivering⟩
    · unfold Attempt.inTurn
      rw [hsubscribe, Attempt.andThen_none]
      exact hb
    · rw [hall, show Bus.table _ t' = _ from htable t']
      by_cases ht : t' = t
      · subst ht
        simp [hnew]
      · simp [ht]

theorem recorded_sound (h : IsFresh n s) {b : Bus Listener Detail}
    (hb : ∀ t, b.table t = [recorderEntry]) : Sound n { s with bus := b } where
  slots := h.slots
  view := h.view
  listed t e he := by
    rw [show Bus.table _ t = _ from hb t, List.mem_singleton] at he
    subst he
    exact ⟨⟨rfl, rfl⟩, ⟨1000000000, rfl⟩, nofun, nofun⟩
  leads t := by
    rw [show Bus.table _ t = _ from hb t]
    exact ⟨[], rfl, nofun⟩

theorem hooks_eq (h : Sound n s) (ks : List (Hook τ × Nat))
    (hks : ∀ k ∈ ks, s.hooks[k.2]? = some k.1 ∧
      ∃ m : Int, k.1.priority = .int m ∧ m ≤ 1000000000) :
    ∃ s', Attempt.inTurn (fun (k, i) => subscribe k.topic k.priority (.hook i)) ks s = (s', none) ∧
      Sound n s' ∧ s'.backstage = s.backstage ∧ s'.sight = s.sight := by
  induction ks generalizing s with
  | nil => exact ⟨s, rfl, h, rfl, rfl⟩
  | cons k ks ih =>
    obtain ⟨hk, m, hpriority, hm⟩ := hks k (List.mem_cons_self ..)
    obtain ⟨s₁, hs₁, hsound₁, hback₁, hsight₁⟩ := subscribe_eq h hm (t := k.1.topic)
      (l := .hook k.2) ⟨⟨rfl, rfl⟩, ⟨m, rfl⟩, fun i hi => by cases hi; exact ⟨k.1, hk, rfl⟩, nofun⟩ nofun
    have hhooks : s₁.hooks = s.hooks := congrArg Backstage.hooks hback₁
    obtain ⟨s₂, hs₂, hsound₂, hback₂, hsight₂⟩ := ih hsound₁ fun k' hk' => by
      rw [hhooks]
      exact hks k' (List.mem_cons_of_mem _ hk')
    refine ⟨s₂, ?_, hsound₂, hback₂.trans hback₁, hsight₂.trans hsight₁⟩
    unfold Attempt.inTurn
    simp only [hpriority, hs₁, Attempt.andThen_none]
    exact hs₂

theorem open_eq (h : IsFresh n s) :
    ∃ s', s.open_ = (s', none) ∧ Sound n s' ∧ s'.backstage = s.backstage ∧
      s'.sight.news = [] ∧ s'.bows = 0 ∧ s'.ears = 0 := by
  obtain ⟨b, hb, hall, hqueue, hdelivering⟩ := record_eq (s := s) Topic.all (by decide)
    fun t _ => by rw [h.bus]; rfl
  have htable (t : Topic) : b.table t = [recorderEntry] := by
    rw [hall, if_pos (by cases t <;> decide)]
  obtain ⟨s', hs', hsound, hback, hsight⟩ := hooks_eq (recorded_sound h htable)
    s.hooks.zipIdx fun ⟨k, i⟩ hk => by
      have hget := List.mk_mem_zipIdx_iff_getElem?.1 hk
      exact ⟨hget, h.hooks k (List.mem_of_getElem? hget)⟩
  refine ⟨s', ?_, hsound, hback.trans ?_, ?_, ?_, ?_⟩
  · unfold open_
    rw [hb, Attempt.andThen_none]
    exact hs'
  · unfold backstage
    rw [hqueue, hdelivering]
  · refine (congrArg Sight.news hsight).trans ?_
    show s.marks.filterMap news? ++ b.queue.filter _ = []
    rw [h.marks, hqueue, h.bus]
    rfl
  · refine (congrArg Sight.bows hsight).trans ?_
    show s.marks.countP isBow = 0
    rw [h.marks]
    rfl
  · refine (congrArg Sight.ears hsight).trans ?_
    show (b.table .actionPressed).countP _ = 0
    rw [htable]
    rfl

end Stand

namespace Rehearsal
open Stand (Backstage)
variable {τ : Type} [Clock τ]

/-- A rehearsal that was just opened. -/
def opened (s : Stand τ) : Rehearsal τ := .start s.open_.1

/-- A rehearsal after orders from outside. -/
def rehearse (interval : τ) (sound : Json) (os : List (Order τ)) (d : Rehearsal τ) : Rehearsal τ :=
  os.foldl (fun d o => (execute interval sound o d).1) d

/-- The answers to orders from outside. -/
def answers (interval : τ) (sound : Json) : List (Order τ) → Rehearsal τ → List Answer
  | [], _ => []
  | o :: os, d =>
    (execute interval sound o d).2 :: answers interval sound os (execute interval sound o d).1

variable {interval : τ} {sound : Json} {d : Rehearsal τ}

/-- What every one of the orders keeps holds after all of them, and what it brings about holds of
every answer. -/
theorem rehearse_keeps {J : Rehearsal τ → Prop} {A : Answer → Prop} (os : List (Order τ))
    (hstep : ∀ o ∈ os, ∀ d, J d →
      J (execute interval sound o d).1 ∧ A (execute interval sound o d).2) (h : J d) : J (rehearse interval sound os d) ∧ ∀ a ∈ answers interval sound os d, A a := by
  induction os generalizing d with
  | nil => exact ⟨h, nofun⟩
  | cons o os ih =>
    obtain ⟨hJ, hA⟩ := hstep o (List.mem_cons_self ..) d h
    obtain ⟨hJ', hA'⟩ := ih (fun o' ho' => hstep o' (List.mem_cons_of_mem _ ho')) hJ
    refine ⟨hJ', fun a ha => ?_⟩
    rcases List.mem_cons.1 ha with rfl | ha
    · exact hA
    · exact hA' a ha

variable {n : Nat} {calm : Prop} {reading : τ → Prop} {K : Backstage τ → Prop} {c : Course}
  {s : Stand τ}

/-- A rehearsal that was just opened is steady, and nothing was seen of it. -/
theorem opened_steady (hc : Clock.Runs interval reading) (h : s.IsFresh n)
    (hK : K s.backstage) : (Stand.venue n calm reading K c).Steady (opened s) ∧
      (opened s).outside.sight.news = [] ∧ (opened s).outside.bows = 0 ∧
      (opened s).outside.ears = 0 := by
  obtain ⟨s', hs', hsound, hback, hblank⟩ := Stand.open_eq h
  have hopened : opened s = .start s' := by
    unfold opened
    rw [hs']
  rw [hopened]
  refine ⟨⟨⟨⟨hsound, hback ▸ hK⟩, ⟨List.nodup_nil, nofun, nofun⟩, hc.origin, Nat.le_refl _⟩,
    by simp [Dialogue.start], nofun, nofun, nofun, fun _ => Or.inl ⟨fun _ => rfl, nofun, nofun⟩,
    none, ?_, nofun⟩, hblank⟩
  show lineAfter s'.sight.news = some none
  rw [hblank.1]
  rfl

theorem opened_rests (hc : Clock.Runs interval reading) (h : s.IsFresh n)
    (hK : K s.backstage) (honly : c.only = none) :
    Dialogue.Resting (Stand.venue n calm reading K c) (opened s) := by
  obtain ⟨hsteady, hnews, hbows, hears⟩ := opened_steady (c := c) hc h hK
  refine ⟨hsteady, nofun, fun _ => ?_⟩
  refine .ofAway ?_ hears rfl (Or.inl rfl) rfl ⟨fun _ => rfl, nofun, nofun⟩
  show History c (opened s).outside.sight.news (opened s).outside.bows none .away
  rw [hnews, hbows]
  exact .blank honly

/-! ## Calm rehearsals -/

omit [Clock τ] in
theorem hushed (h : s.IsCalm n) (hbow : c.bow = s.noticesEnd.toNat)
    (honly : s.encores ≠ [] → c.only = none) : Hushed c s.backstage := by
  refine ⟨?_, ?_, hbow, h.quiet, honly⟩
  · show s.bus.queue = []
    rw [h.bus]
  · show s.bus.delivering = false
    rw [h.bus]

/-- One command more leaves a calm rehearsal behind that rests; the story does not refuse it. -/
theorem execute_calm (sound : Json) (hc : Clock.Runs interval reading) {o : Order τ}
    (ho : o.isCommand) (h : Dialogue.Resting (calmVenue n reading c) d) (honly : ∀ m, o = .begin m → c.only = none) :
    Dialogue.Resting (calmVenue n reading c) (execute interval sound o d).1 ∧
      (execute interval sound o d).2.Fits := by
  obtain ⟨hrest, hfits⟩ := command_rests (Stand.suits hc n True _ c sound _)
    (attends interval sound) calm_owned ho h fun _ => honly
  exact ⟨hrest, hfits trivial⟩

/-- After any commands a calm rehearsal rests. -/
theorem rehearse_calm (hc : Clock.Runs interval reading) (h : s.IsCalm n) {os : List (Order τ)}
    (hos : ∀ o ∈ os, o.isCommand) :
    Dialogue.Resting (calmVenue n reading ⟨none, s.noticesEnd.toNat⟩)
      (rehearse interval sound os (opened s)) :=
  (rehearse_keeps os (fun o ho _ hd => execute_calm sound hc (hos o ho) hd fun _ _ => rfl)
    (opened_rests hc h.toIsFresh (hushed h rfl fun _ => rfl) rfl)).1

end Rehearsal
end VisualNovel
