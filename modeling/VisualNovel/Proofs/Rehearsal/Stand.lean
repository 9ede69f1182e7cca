import VisualNovel.Dialogue.Rehearsal
import VisualNovel.Proofs.Bus.Delivery
import VisualNovel.Proofs.Clock
import VisualNovel.Proofs.Dialogue.Venue
/-!
# The surroundings of a rehearsal

What can be seen in the surroundings of a rehearsal is read off the marks, the view and the bus
(`Stand.sight`). Surroundings are sound (`Stand.Sound`) if the bus and the view are set up as a
rehearsal sets them up; then no call breaks off, and the dialogue can listen to the player.
-/
namespace VisualNovel

namespace Stand
variable {τ : Type}

/-! ## What can be seen -/

/-- The line and the choices on a screen after a mark. -/
def draw (p : String × List Button) : RehearsalMark → String × List Button
  | .call (.line text) => (text, p.2)
  | .call (.choices offered) => (p.1, offered.map Button.ofChoice)
  | .call .hideChoices => (p.1, [])
  | _ => p

/-- The line and the choices on a screen that follows the marks. -/
def screen (marks : List RehearsalMark) : String × List Button := marks.foldl draw ("", [])

/-- The event of a dialogue that a mark tells of. -/
def news? : RehearsalMark → Option Notice
  | .notice n => if n.topic.isNovel then some n else none
  | _ => none

/-- The events of the dialogue that were delivered. -/
def news (s : Stand τ) : List Notice := s.marks.filterMap news?

/-- Whether the owner of the dialogue was told of an end. -/
def isBow : RehearsalMark → Bool
  | .ended => true
  | _ => false

/-- The events of the dialogue that were published: those that were delivered and those that
wait. -/
def published (s : Stand τ) : List Notice :=
  s.news ++ s.bus.queue.filter fun n => n.topic.isNovel

/-- How often the owner of the dialogue was told of an end. -/
def bows (s : Stand τ) : Nat := s.marks.countP isBow

/-- How often the dialogue is subscribed to the player's actions. -/
def ears (s : Stand τ) : Nat :=
  (s.bus.table .actionPressed).countP fun e => e.handler = .dialogue

/-- What can be seen. -/
def sight (s : Stand τ) : Sight where
  line := s.view.elim (screen s.marks).1 (·.line)
  offered := s.view.elim (screen s.marks).2 (·.choices)
  ears := s.ears
  news := s.published
  bows := s.bows

theorem sight_leave_call {s : Stand τ} {c : Call} (h : s.view = none) :
    (s.leave (.call c)).sight = s.sight.after c := by
  unfold sight leave published news bows ears screen
  simp only [h, Option.elim_none, List.foldl_append, List.filterMap_append, List.countP_append]
  cases c <;> simp [draw, news?, isBow, Sight.after]

theorem sight_leave_of_view {s : Stand τ} {v : View} {c : Call} (h : s.view = some v) :
    (s.leave (.call c)).sight = s.sight := by
  unfold sight leave published news bows ears
  simp [h, news?, isBow]

/-! ## Sound surroundings -/

/-- The subscription of the recorder. -/
def recorderEntry : Entry Listener := ⟨recorderPriority, .recorder, false, false⟩

/-- A subscription as a rehearsal makes it: a hook hears of its own topic, and the dialogue of the
player's actions. -/
structure Listed (hooks : List (Hook τ)) (t : Topic) (e : Entry Listener) : Prop where
  lasts : e.lasts
  ranked : e.isRanked
  hook : ∀ i, e.handler = .hook i → ∃ h, hooks[i]? = some h ∧ h.topic = t
  dialogue : e.handler = .dialogue → t = .actionPressed

/-- Before the other entries comes the one of the recorder, and there is no other one of it. -/
def IsLed (es : List (Entry Listener)) : Prop :=
  ∃ rest, es = recorderEntry :: rest ∧ ∀ e ∈ rest, e.handler ≠ .recorder

/-- What the dialogue does to its surroundings leaves alone. -/
structure Backstage (τ : Type) where
  hooks : List (Hook τ)
  queue : List Notice
  delivering : Bool
  noticesEnd : Bool
  encores : List Material

/-- What the dialogue leaves alone. -/
def backstage (s : Stand τ) : Backstage τ :=
  ⟨s.hooks, s.bus.queue, s.bus.delivering, s.noticesEnd, s.encores⟩

/-- Surroundings with `n` slots that are set up as they should be. -/
structure Sound (n : Nat) (s : Stand τ) : Prop where
  slots : s.slots = .count n
  view : ∀ v, s.view = some v → v.slots = .count n
  listed : ∀ t, ∀ e ∈ s.bus.table t, Listed s.hooks t e
  leads : ∀ t, IsLed (s.bus.table t)

/-! ## Calls -/

theorem view_perform {n : Nat} {v : View} {c : Call} (hv : v.slots = .count n)
    (hc : ∀ cs, c = .choices cs → cs.length ≤ n) :
    ∃ v', v.perform c = .ok v' ∧ v'.slots = .count n ∧
      ∀ p : Sight, p.line = v.line → p.offered = v.choices →
        (p.after c).line = v'.line ∧ (p.after c).offered = v'.choices := by
  cases c with
  | choices offered =>
    have hlen : (offered.map Button.ofChoice).length ≤ n := by
      rw [List.length_map]
      exact hc offered rfl
    refine ⟨v.hold (offered.map Button.ofChoice), ?_, hv, fun p hl _ => ⟨hl, rfl⟩⟩
    simp [View.perform, View.showChoices, hv, Slots.cut, firstSlots, List.take_of_length_le,
      hc offered rfl, Except.map]
  | hideChoices =>
    refine ⟨v.hideChoices, rfl, ?_, fun p hl _ => ?_⟩
    · unfold View.hideChoices
      simp only
      split <;> exact hv
    · unfold View.hideChoices
      simp only
      split <;> exact ⟨hl, rfl⟩
  | focus slot =>
    refine ⟨v.focusChoice slot, rfl, ?_, fun p hl ho => ?_⟩
    · unfold View.focusChoice
      split <;> exact hv
    · unfold View.focusChoice
      split <;> exact ⟨hl, ho⟩
  | line text => exact ⟨v.setLine text, rfl, hv, fun p _ ho => ⟨rfl, ho⟩⟩
  | visible count => exact ⟨v.setVisible count, rfl, hv, fun p hl ho => ⟨hl, ho⟩⟩
  | clearFocus => exact ⟨v.setFocus none, rfl, hv, fun p hl ho => ⟨hl, ho⟩⟩
  | name text => exact ⟨_, rfl, hv, fun p hl ho => ⟨hl, ho⟩⟩
  | play _ | stop _ | switchTheme _ | expression _ _ | splash _ =>
    exact ⟨v, rfl, hv, fun p hl ho => ⟨hl, ho⟩⟩

/-! ## Listening -/

variable {n : Nat} {s : Stand τ}

theorem Sound.withTable (h : Sound n s) {t : Topic} {es : List (Entry Listener)}
    (hes : ∀ e ∈ es, Listed s.hooks t e) (hled : IsLed es) :
    Sound n { s with bus := s.bus.setTable t es } where
  slots := h.slots
  view := h.view
  listed t' e he := by
    rw [show Bus.table _ t' = _ from Bus.table_setTable s.bus t es t'] at he
    split at he
    · next ht =>
      rw [ht]
      exact hes e he
    · exact h.listed t' e he
  leads t' := by
    rw [show Bus.table _ t' = _ from Bus.table_setTable s.bus t es t']
    split
    · exact hled
    · exact h.leads t'

theorem ears_setTable (es : List (Entry Listener)) :
    ears { s with bus := s.bus.setTable .actionPressed es } =
      es.countP fun e => e.handler = .dialogue := by
  unfold ears
  rw [Bus.table_setTable, if_pos rfl]

/-- Whoever is not the recorder can subscribe, and comes after the recorder. -/
theorem subscribe_eq (h : Sound n s) {t : Topic} {l : Listener} {m : Int}
    (hm : m ≤ 1000000000) (hl : Listed s.hooks t ⟨.int m, l, false, false⟩) (hne : l ≠ .recorder) :
    ∃ s', s.subscribe t (.int m) l = (s', none) ∧ Sound n s' ∧ s'.backstage = s.backstage ∧
      s'.sight = { s.sight with ears := s.sight.ears + if l = .dialogue then 1 else 0 } := by
  have hranked (e : Entry Listener) (he : e ∈ s.bus.table t) : e.isRanked :=
    (h.listed t e he).ranked
  obtain ⟨before, behind, hins, htable⟩ := insertEntry_ranked hl.ranked hranked
  have hsubscribe : s.subscribe t (.int m) l =
      ({ s with
          bus := s.bus.setTable t (before ++ ⟨.int m, l, false, false⟩ :: behind) }, none) := by
    unfold subscribe Bus.subscribe
    simp [show insertEntry (⟨.int m, l, false, false⟩ : Entry Listener) (s.bus.table t) = _ from
      hins, Except.map]
  refine ⟨_, hsubscribe, h.withTable (fun e he => ?_) ?_, rfl, ?_⟩
  · rw [List.mem_append, List.mem_cons] at he
    rcases he with he | rfl | he
    · exact h.listed t e (htable ▸ List.mem_append_left _ he)
    · exact hl
    · exact h.listed t e (htable ▸ List.mem_append_right _ he)
  · obtain ⟨rest, hrest, hnone⟩ := h.leads t
    obtain ⟨before', behind', hins', hsplit⟩ := insertEntry_ranked hl.ranked
      fun e he => hranked e (hrest ▸ List.mem_cons_of_mem _ he)
    rw [hrest, insertEntry_cons (m := m) (n := 1000000000) rfl rfl hm, hins'] at hins
    refine ⟨before' ++ ⟨.int m, l, false, false⟩ :: behind', (Except.ok.inj hins).symm,
      fun e he => ?_⟩
    rw [List.mem_append, List.mem_cons] at he
    rcases he with he | rfl | he
    · exact hnone e (hsplit ▸ List.mem_append_left _ he)
    · exact hne
    · exact hnone e (hsplit ▸ List.mem_append_right _ he)
  · have hears : ears { s with
          bus := s.bus.setTable t (before ++ ⟨.int m, l, false, false⟩ :: behind) } =
        s.ears + if l = .dialogue then 1 else 0 := by
      unfold ears
      rw [Bus.table_setTable]
      by_cases ht : Topic.actionPressed = t
      · rw [if_pos ht, ht, htable]
        simp only [List.countP_append, List.countP_cons, decide_eq_true_eq]
        omega
      · have hdeaf : l ≠ .dialogue := fun hd => ht (hl.dialogue hd).symm
        rw [if_neg ht, if_neg hdeaf, Nat.add_zero]
    show Stand.sight _ = _
    unfold sight
    rw [hears]
    rfl

theorem listen_eq (h : Sound n s) :
    ∃ s', s.listen = (s', none) ∧ Sound n s' ∧ s'.backstage = s.backstage ∧
      s'.sight = { s.sight with ears := s.sight.ears + 1 } := by
  obtain ⟨s', hs', hsound, hback, hsight⟩ := subscribe_eq h (m := 10) (by decide)
    (t := .actionPressed) (l := .dialogue) ⟨⟨rfl, rfl⟩, ⟨10, rfl⟩, nofun, fun _ => rfl⟩ nofun
  refine ⟨s', ?_, hsound, hback, hsight⟩
  unfold listen
  rw [show s.subscribe .actionPressed dialoguePriority .dialogue = _ from hs']
  rfl

/-- The subscriptions to the player's actions but those of the dialogue. -/
def others (s : Stand τ) : List (Entry Listener) :=
  (s.bus.table .actionPressed).filter fun e => !(e.handler = .dialogue && (!e.weak || true))

theorem unlisten_eq (h : Sound n s) :
    let s' := { s with bus := s.bus.unsubscribe (fun _ => true) .actionPressed .dialogue }
    Sound n s' ∧ s'.backstage = s.backstage ∧ s'.sight = { s.sight with ears := 0 } := by
  have hbus : s.bus.unsubscribe (fun _ => true) .actionPressed .dialogue =
      s.bus.setTable .actionPressed s.others := rfl
  simp only [hbus]
  refine ⟨h.withTable (fun e he => ?_) ?_, rfl, ?_⟩
  · exact h.listed _ e (List.mem_filter.1 he).1
  · obtain ⟨rest, hrest, hnone⟩ := h.leads .actionPressed
    unfold others
    rw [hrest]
    exact ⟨_, List.filter_cons_of_pos (by simp [recorderEntry]), fun e he =>
      hnone e (List.mem_filter.1 he).1⟩
  · unfold sight
    rw [ears_setTable, List.countP_eq_zero.2]
    · rfl
    · intro e he
      have := (List.mem_filter.1 he).2
      simpa using this

/-! ## The venue of a rehearsal -/

/-- The venue of a rehearsal with `n` slots, of which `K` is asked backstage. -/
def venue (n : Nat) (calm : Prop) (reading : τ → Prop) (K : Backstage τ → Prop) (c : Course) :
    Venue τ (Stand τ) where
  ok s := Sound n s ∧ K s.backstage
  sight := sight
  slots := n
  reading := reading
  calm := calm
  course := c

/-- A rehearsal is wired to sound surroundings. -/
theorem suits [Clock τ] {interval : τ} {reading : τ → Prop} (hc : Clock.Runs interval reading)
    (n : Nat) (calm : Prop) (K : Backstage τ → Prop) (c : Course) (sound : Json)
    (publish : Rehearsal.Publisher τ) :
    (venue n calm reading K c).Suits (Rehearsal.wiring interval sound publish) where
  slots _ ho := ho.1.slots
  perform call s ho hlen := by
    obtain ⟨hs, hK⟩ := ho
    show ∃ s', s.perform call = (s', none) ∧ _
    unfold perform
    match hv : s.view with
    | none =>
      refine ⟨_, rfl, ⟨⟨hs.slots, ?_, hs.listed, hs.leads⟩, hK⟩, sight_leave_call hv⟩
      exact hs.view
    | some v =>
      simp only
      obtain ⟨v', hp, hv', hsight⟩ := view_perform (hs.view v hv) hlen
      obtain ⟨hline, hoff⟩ := hsight s.sight (by simp [sight, hv]) (by simp [sight, hv])
      split
      · rw [hp]
        refine ⟨_, rfl, ⟨⟨hs.slots, ?_, hs.listed, hs.leads⟩, hK⟩, ?_⟩
        · intro u hu
          cases hu
          exact hv'
        · show sight { s with view := some v' } = s.sight.after call
          rw [Sight.after_eq, hline, hoff]
          rfl
      · next hvis =>
        refine ⟨_, rfl, ⟨⟨hs.slots, hs.view, hs.listed, hs.leads⟩, hK⟩, ?_⟩
        rw [show (venue n calm reading K c).sight = sight from rfl, sight_leave_of_view hv]
        cases call <;> first | rfl | exact absurd rfl hvis
  report _ _ ho := ⟨⟨⟨ho.1.slots, ho.1.view, ho.1.listed, ho.1.leads⟩, ho.2⟩, rfl⟩
  listen s ho := by
    obtain ⟨s', hl, hs, hb, hsight⟩ := listen_eq ho.1
    exact ⟨s', hl, ⟨hs, hb ▸ ho.2⟩, hsight⟩
  unlisten s ho := by
    obtain ⟨hs, hb, hsight⟩ := unlisten_eq ho.1
    exact ⟨⟨hs, hb ▸ ho.2⟩, hsight⟩
  focusStart _ ho := ⟨ho, rfl⟩
  wait := hc.wait
  pass := hc.pass

end Stand
end VisualNovel
