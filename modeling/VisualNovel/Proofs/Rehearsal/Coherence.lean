import VisualNovel.Proofs.Rehearsal.Agreement
import VisualNovel.Proofs.Rehearsal.Hazard
/-!
# Coherence

A rehearsal is coherent if what its session says of a reveal is what its tasks do and its screen
shows, and if no line that was announced is replaced before it was revealed. Hooks that ask for
nothing hazardous keep every rehearsal coherent, whatever else they ask for and whatever orders come
from outside. Each of the hazards, on the other hand, leads to a rehearsal that is not coherent
(`hooks_keep_coherence_iff`).
-/
namespace VisualNovel

/-- Surroundings in which a hook gives no other orders than those allowed while an event of its
topic is being delivered. -/
structure Stand.IsBound (allowed : Topic → Deed → Prop) (n : Nat) (s : Stand τ) : Prop
    extends IsFresh n s where
  bound : ∀ k ∈ s.hooks, ∀ left, ∀ step ∈ k.steps left, step.Within (allowed k.topic)

namespace Rehearsal
open Stand (Near Backstage)
variable {τ : Type}

/-- The session agrees with the tasks and with the screen on what is being revealed. -/
structure Coherent (d : Rehearsal τ) : Prop where
  phase : d.session.phase = .revealing ↔ d.session.revealing = true
  task : .str "reveal_line" ∈ d.taskNames ↔ d.session.revealing = true
  line : d.session.revealing = true → d.outside.sight.line = d.session.line
  offers : d.session.revealing = true → d.session.pending = [] ∧ d.outside.sight.offered = []
  away : d.session.active = false → d.session.revealing = false
  paced : ∃ line?, lineAfter d.outside.published = some line? ∧ (d.session.active = true →
    line? = if d.session.revealing then some d.session.line else none)

instance (d : Rehearsal τ) : Decidable (Coherent d) :=
  decidable_of_decidable_of_iff (p :=
    (d.session.phase = .revealing ↔ d.session.revealing = true) ∧
    (.str "reveal_line" ∈ d.taskNames ↔ d.session.revealing = true) ∧
    (d.session.revealing = true → d.outside.sight.line = d.session.line) ∧
    (d.session.revealing = true → d.session.pending = [] ∧ d.outside.sight.offered = []) ∧
    (d.session.active = false → d.session.revealing = false) ∧
    (lineAfter d.outside.published).any fun line? => decide (d.session.active = true →
      line? = if d.session.revealing then some d.session.line else none)) <| by
  simp only [Option.any_eq_true, decide_eq_true_eq]
  exact ⟨fun ⟨h₁, h₂, h₃, h₄, h₅, h₆⟩ => ⟨h₁, h₂, h₃, h₄, h₅, h₆⟩,
    fun h => ⟨h.phase, h.task, h.line, h.offers, h.away, h.paced⟩⟩

theorem coherent_of_rests {n : Nat} {calm : Prop} {reading : τ → Prop} {K : Backstage τ → Prop}
    {c : Course} {d : Rehearsal τ}
    (h : Dialogue.Resting (Stand.venue n calm reading K c) d) : Coherent d := by
  refine ⟨h.steady.phase, h.reveal_line, fun hr => (h.steady.shows hr).2.2.1,
    fun hr => ⟨(h.steady.shows hr).2.1, (h.steady.shows hr).2.2.2⟩, fun hoff => ?_, h.steady.pace⟩
  cases hr : d.session.revealing with
  | false => rfl
  | true =>
    rw [(h.steady.shows hr).1] at hoff
    cases hoff

/-! ## Orders from outside -/

variable [Clock τ] {interval : τ} {reading : τ → Prop} {sound : Json} {n : Nat}
  {rs : List (Role τ)} {d : Rehearsal τ} {s : Stand τ}

omit [Clock τ] in
/-- To move the focus changes nothing that matters to the dialogue. -/
theorem moveFocus_rests (h : Dialogue.Resting (busyVenue n reading (Idle rs)) d) (delta : Json) :
    Dialogue.Resting (busyVenue n reading (Idle rs)) (d.moveFocus delta).1 := by
  obtain ⟨hs, hidle⟩ := h.steady.ok
  unfold moveFocus
  match hv : d.outside.view with
  | none => exact h
  | some v =>
    simp only
    match hm : v.moveFocusBy delta with
    | .error e => exact h
    | .ok (v', moved) =>
      have hsame : v'.slots = v.slots ∧ v'.line = v.line ∧ v'.choices = v.choices := by
        unfold View.moveFocusBy at hm
        split at hm
        · cases hm
          exact ⟨rfl, rfl, rfl⟩
        · cases hnav : v.focus.navigateBy delta with
          | error e =>
            rw [hnav] at hm
            cases hm
          | ok p =>
            rw [hnav] at hm
            cases hm
            exact ⟨rfl, rfl, rfl⟩
      obtain ⟨hslots, hline, hchoices⟩ := hsame
      refine ⟨h.steady.outside ⟨⟨⟨hs.slots, ?_, hs.listed, hs.leads⟩, hidle⟩, ?_, ?_, rfl⟩, h.rest,
        fun hcalm => hcalm.elim⟩
      · rintro u hu
        cases hu
        exact hslots.trans (hs.view v hv)
      · show v'.line = d.outside.sight.line
        rw [hline]
        simp [Stand.sight, hv]
      · show v'.choices = d.outside.sight.offered
        rw [hchoices]
        simp [Stand.sight, hv]

/-- An order from outside leaves a busy rehearsal behind that rests, if no hook asks for what is
hazardous. -/
theorem execute_busy (hc : Clock.Runs interval reading)
    (hbound : ∀ r ∈ rs, ∀ left, ∀ step ∈ r.2 left, step.Within fun deed => ¬Hazard r.1 deed)
    (o : Order τ) (h : Dialogue.Resting (busyVenue n reading (Idle rs)) d) :
    Dialogue.Resting (busyVenue n reading (Idle rs)) (execute interval sound o d).1 := by
  have hcommand (ho : o.isCommand) := (command_rests
    (Stand.suits hc n False (Idle rs) ⟨none, 0⟩ sound _) (attends_busy hc hbound)
    (busy_owned fun _ _ hb => ⟨⟨hb.hooks, hb.queue⟩, hb.delivering⟩) ho h fun hcalm => hcalm.elim).1
  cases o with
  | begin | update | advance | goOn | choose | shutdown => exact hcommand trivial
  | move delta => exact moveFocus_rests h delta
  | act name =>
    show Dialogue.Resting _ (carryOut interval sound (publish interval sound) (.act name) d).1
    unfold carryOut
    simp only
    match Action.ofName? name with
    | none => exact h
    | some a =>
      obtain ⟨hs, hidle⟩ := h.steady.ok
      have hnear : Near [] d.outside (d.outside.leave (.notice (.actionPressed a))) :=
        Stand.recorder_near (.actionPressed a) d.outside
      have ho : (busyVenue n reading (Vacant rs)).ok d.outside := ⟨hs, hidle.toVacant⟩
      have hk := keeps_near ho hnear
      have hwritten := (steady_recast h.steady hidle.toVacant).outside hk.sameView
      obtain ⟨hsteady, hf⟩ := publish_busy sound hc
        (fun r hr left step hstep => (hbound r hr left step hstep).mono fun _ _ => trivial) hidle
        (steady_recast hwritten hk.1.2.served)
      exact ⟨hsteady, h.rest.follows hf, fun hcalm => hcalm.elim⟩

/-- Hooks that ask for nothing hazardous leave a rehearsal behind that rests, whatever orders come
from outside. -/
theorem rehearse_busy {allowed : Topic → Deed → Prop} (hc : Clock.Runs interval reading)
    (hs : s.IsBound allowed n) (hsafe : ∀ t deed, allowed t deed → ¬Hazard t deed)
    (os : List (Order τ)) : Dialogue.Resting (busyVenue n reading (Idle s.roles))
      (rehearse interval sound os (opened s)) := by
  have hbound (r : Role τ) (hr : r ∈ s.roles) (left : Nat) (step : HookStep τ)
      (hstep : step ∈ r.2 left) : step.Within fun deed => ¬Hazard r.1 deed := by
    obtain ⟨k, hk, rfl⟩ := List.mem_map.1 hr
    exact (hs.bound k hk left step hstep).mono (hsafe k.topic)
  have hidle : Idle s.roles s.backstage := by
    refine ⟨⟨rfl, ?_⟩, ?_⟩
    · show s.bus.queue = []
      rw [hs.bus]
    · show s.bus.delivering = false
      rw [hs.bus]
  have hopened : Dialogue.Resting (busyVenue n reading (Idle s.roles)) (opened s) :=
    opened_rests hc hs.toIsFresh hidle rfl
  exact (rehearse_keeps os (A := fun _ => True)
    (fun o _ d hd => ⟨execute_busy hc hbound o hd, trivial⟩) hopened).1

/-- Hooks that ask for nothing hazardous keep a rehearsal coherent, whatever orders come from
outside. -/
theorem rehearse_coherent {allowed : Topic → Deed → Prop} (hc : Clock.Runs interval reading)
    (hs : s.IsBound allowed n) (hsafe : ∀ t deed, allowed t deed → ¬Hazard t deed)
    (os : List (Order τ)) : Coherent (rehearse interval sound os (opened s)) :=
  coherent_of_rests (rehearse_busy hc hs hsafe os)

/-! ## Hazards -/

/-- A story that reads lines and has a choice after them, which leads to another line. -/
def tale (lines : List String) : Json :=
  .obj [("nodes", .arr [
    .obj [("id", .str "a"), ("lines", .arr (lines.map fun text => .obj [("text", .str text)])),
      ("choices", .arr [.obj [("text", .str "Next"), ("next", .str "b")]])],
    .obj [("id", .str "b"), ("lines", .arr [.obj [("text", .str "Last!")]])]])]

/-- Surroundings with one hook, which gives one order. -/
def meddler (t : Topic) (o : Order Rat) : Stand Rat :=
  { hooks := [⟨t, .int 0, 1, fun _ => [.order o]⟩] }

/-- Each hazard leads to a rehearsal that is not coherent. -/
theorem incoherent_of_hazard {t : Topic} {deed : Deed} (h : Hazard t deed) :
    ∃ o lines os, o.deed? = some deed ∧ ¬Coherent
      (rehearse 1 .null (.begin (.content (tale lines)) :: os) (opened (meddler t o))) := by
  cases h with
  | goOnAtStart => exact ⟨.goOn, ["One.", "Two!"], [], rfl, by decide +kernel⟩
  | advanceAtStart => exact ⟨.advance, ["One.", "Two!"], [], rfl, by decide +kernel⟩
  | shutdownAtStart => exact ⟨.shutdown, ["One."], [], rfl, by decide +kernel⟩
  | goOnAtEnd => exact ⟨.goOn, ["", "Two!"], [], rfl, by decide +kernel⟩
  | advanceAtEnd => exact ⟨.advance, ["", "Two!"], [], rfl, by decide +kernel⟩
  | chooseAtOffer => exact ⟨.choose (.int 0), [""], [.shutdown], rfl, by decide +kernel⟩

/-- Hooks keep every rehearsal coherent if and only if they must not ask for anything hazardous. -/
theorem hooks_keep_coherence_iff (allowed : Topic → Deed → Prop) :
    (∀ (τ : Type) [Clock τ] (interval : τ) (reading : τ → Prop) (sound : Json) (n : Nat)
      (s : Stand τ) (os : List (Order τ)), Clock.Runs interval reading → s.IsBound allowed n →
        Coherent (rehearse interval sound os (opened s))) ↔
      ∀ t deed, allowed t deed → ¬Hazard t deed := by
  refine ⟨fun hall t deed hallowed hhazard => ?_,
    fun hsafe _ _ _ _ _ _ _ os hc hs => rehearse_coherent hc hs hsafe os⟩
  obtain ⟨o, lines, os, ho, hnot⟩ := incoherent_of_hazard hhazard
  refine hnot (hall Rat 1 _ .null 3 (meddler t o) _ (Clock.runs_rat 1)
    ⟨⟨rfl, rfl, rfl, fun v hv => ?_, fun k hk => ?_⟩, fun k hk left step hstep => ?_⟩)
  · cases hv
  · cases List.mem_singleton.1 hk
    exact ⟨0, rfl, by decide⟩
  · cases List.mem_singleton.1 hk
    cases List.mem_singleton.1 hstep
    exact ⟨deed, ho, hallowed⟩

end Rehearsal
end VisualNovel
