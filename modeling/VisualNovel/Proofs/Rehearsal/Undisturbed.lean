import VisualNovel.Proofs.Rehearsal.Coherence
/-!
# Reveals that nobody disturbs

While a line is being revealed, a dialogue that runs ignores every order to begin a story, to go on
and to make a choice; the player's signal asks for a skip and does nothing else
(`rehearse_ignores`). A dialogue that reveals a line runs, as long as no hook has asked for anything
hazardous (`orders_leave_a_reveal_alone`). A hook that breaks the dialogue off while a line is
announced leaves one behind that reveals the line and does not run; there a story may be begun.
-/
namespace VisualNovel

/-- The orders that have to wait until a line is revealed. -/
def Order.Waits : Order τ → Prop
  | .begin (.content _) | .advance | .goOn | .choose (.int _) => True
  | .begin (.script _) | .choose _ | .update .. | .act _ | .shutdown | .move _ => False

/-- Whether an order is the player's signal. -/
def Order.isSignal : Order τ → Bool
  | .advance => true
  | _ => false

namespace Rehearsal
variable {τ : Type}

/-- What is left of a rehearsal that ignores orders: reports may have been made and, if it was asked
for, a skip noted. All else is as it was. -/
def Ignores (asked : Bool) (d d' : Rehearsal τ) : Prop :=
  ∃ reports, d' = { d with
    session := { d.session with skip := d.session.skip || asked }
    outside := { d.outside with log := d.outside.log ++ reports } }

namespace Ignores
variable {d d' d'' : Rehearsal τ} {asked again : Bool}

theorem refl (d : Rehearsal τ) : Ignores false d d := ⟨[], by simp⟩

theorem report (d : Rehearsal τ) (e : Log.Entry) : Ignores false d (d.report Stand.stage e) :=
  ⟨[e], by simp [Dialogue.report, Dialogue.withOutside, Stand.stage]⟩

theorem trans (h : Ignores asked d d') (h' : Ignores again d' d'') :
    Ignores (asked || again) d d'' := by
  obtain ⟨reports, rfl⟩ := h
  obtain ⟨more, rfl⟩ := h'
  exact ⟨reports ++ more, by simp [Bool.or_assoc]⟩

theorem active (h : Ignores asked d d') : d'.session.active = d.session.active := by
  obtain ⟨-, rfl⟩ := h
  rfl

theorem revealing (h : Ignores asked d d') : d'.session.revealing = d.session.revealing := by
  obtain ⟨-, rfl⟩ := h
  rfl

end Ignores

section
variable [Clock τ] {interval : τ} {sound : Json} {d : Rehearsal τ}

/-- What leads to nothing is answered with nothing. -/
theorem conclude_nothing (w : Wiring τ (Stand τ)) (d : Rehearsal τ) :
    conclude w (d, .done) = (d, .none) := by
  unfold conclude settled
  cases d.outside.encores.length <;> rfl

theorem continueStory_revealing (w : Wiring τ (Stand τ)) (hr : d.session.revealing = true) :
    d.continueStory w = (d, .done) := by
  unfold Dialogue.continueStory
  cases d.story <;> simp [hr]

/-- To a choice that comes too early nothing more is said than a report. -/
theorem choose_revealing {w : Wiring τ (Stand τ)} (hw : w.stage = Stand.stage)
    (hact : d.session.active = true) (hr : d.session.revealing = true) (i : Int) :
    ∃ d', d.choose w (.int i) = (d', .done) ∧ Ignores false d d' := by
  unfold Dialogue.choose
  cases d.story with
  | none => exact ⟨d, rfl, .refl d⟩
  | some story =>
    refine ⟨d.report Stand.stage (Dialogue.tooEarly (toString i)), ?_, .report d _⟩
    simp only [hact, hr, hw]
    rfl

/-- An order that has to wait is ignored, and answered with nothing. -/
theorem execute_ignores (hact : d.session.active = true) (hr : d.session.revealing = true)
    {o : Order τ} (ho : o.Waits) :
    Ignores o.isSignal d (execute interval sound o d).1 ∧
      (execute interval sound o d).2 = .none := by
  unfold execute carryOut
  match o, ho with
  | .begin (.content content), _ =>
    simp only [beginStory, Dialogue.begin, hact, if_true, conclude_nothing, and_true]
    exact .report d _
  | .goOn, _ =>
    simp only [continueStory_revealing _ hr, conclude_nothing, and_true]
    exact .refl d
  | .choose (.int i), _ =>
    obtain ⟨d', hchoose, hd'⟩ :=
      choose_revealing (w := wiring interval sound (publish interval sound)) rfl hact hr i
    simp only [hchoose, conclude_nothing, and_true]
    exact hd'
  | .advance, _ =>
    simp only [Dialogue.advance, hact, hr, Bool.not_true, Bool.false_eq_true, if_false, if_true,
      conclude_nothing, and_true]
    exact ⟨[], by simp [Dialogue.withSession, Order.isSignal]⟩

/-- So are any number of them, one after the other. -/
theorem rehearse_ignores (hact : d.session.active = true) (hr : d.session.revealing = true)
    {os : List (Order τ)} (hos : ∀ o ∈ os, o.Waits) :
    Ignores (os.any Order.isSignal) d (rehearse interval sound os d) ∧
      ∀ a ∈ answers interval sound os d, a = .none := by
  induction os generalizing d with
  | nil => exact ⟨.refl d, nofun⟩
  | cons o os ih =>
    obtain ⟨ho, hos⟩ := List.forall_mem_cons.1 hos
    obtain ⟨hfirst, hanswer⟩ : Ignores o.isSignal d (execute interval sound o d).1 ∧
      (execute interval sound o d).2 = .none := execute_ignores hact hr ho
    obtain ⟨hrest, hanswers⟩ := ih (hfirst.active.trans hact) (hfirst.revealing.trans hr) hos
    exact ⟨hfirst.trans hrest, List.forall_mem_cons.2 ⟨hanswer, hanswers⟩⟩

/-- Whatever has come before, if no hook asks for anything hazardous: orders that come while a line
is being revealed, and that have to wait, change nothing and are answered with nothing, except that
the player's signal asks for a skip. The task that reveals the line is there and stays as it is. -/
theorem orders_leave_a_reveal_alone {reading : τ → Prop} {n : Nat} {s : Stand τ}
    {allowed : Topic → Deed → Prop} (hc : Clock.Runs interval reading)
    (hs : s.IsBound allowed n) (hsafe : ∀ t deed, allowed t deed → ¬Hazard t deed)
    (before os : List (Order τ)) (hos : ∀ o ∈ os, o.Waits)
    (hr : (rehearse interval sound before (opened s)).session.revealing = true) :
    (rehearse interval sound before (opened s)).isRevealing = true ∧
      Ignores (os.any Order.isSignal) (rehearse interval sound before (opened s))
        (rehearse interval sound os (rehearse interval sound before (opened s))) ∧
      ∀ a ∈ answers interval sound os (rehearse interval sound before (opened s)), a = .none := by
  have hrests : Dialogue.Resting (busyVenue n reading (Idle s.roles))
      (rehearse interval sound before (opened s)) := rehearse_busy hc hs hsafe before
  have hact := (hrests.steady.shows hr).1
  exact ⟨hrests.isRevealing.2 hr, rehearse_ignores hact hr hos⟩

end

/-- While the first line of a tale is revealed, of which a hook has asked for a choice, a signal
among other orders asks for a skip and that is all. -/
theorem a_reveal_left_alone :
    let s := meddler .lineStarted (.choose (.int 0))
    let before : List (Order Rat) := [.begin (.content (tale ["One."]))]
    let os : List (Order Rat) := [.goOn, .choose (.int 7), .begin (.content (tale [])), .advance]
    s.IsBound (fun t deed => t = .lineStarted ∧ deed = .choose) 3 ∧ (∀ o ∈ os, o.Waits) ∧
      (rehearse 1 .null before (opened s)).session.revealing = true ∧
      (rehearse 1 .null before (opened s)).isRevealing = true ∧
      Ignores (os.any Order.isSignal) (rehearse 1 .null before (opened s))
        (rehearse 1 .null os (rehearse 1 .null before (opened s))) ∧
      ∀ a ∈ answers 1 .null os (rehearse 1 .null before (opened s)), a = .none := by
  intro s before os
  have hs : s.IsBound (fun t deed => t = .lineStarted ∧ deed = .choose) 3 := by
    refine ⟨⟨rfl, rfl, rfl, fun v hv => ?_, fun k hk => ?_⟩, fun k hk left step hstep => ?_⟩
    · cases hv
    · cases List.mem_singleton.1 hk
      exact ⟨0, rfl, by decide⟩
    · cases List.mem_singleton.1 hk
      cases List.mem_singleton.1 hstep
      exact ⟨.choose, rfl, rfl, rfl⟩
  have hsafe (t : Topic) (deed : Deed) (h : t = .lineStarted ∧ deed = .choose) :
      ¬Hazard t deed := by
    obtain ⟨rfl, rfl⟩ := h
    exact nofun
  have hos : ∀ o ∈ os, o.Waits := by simp [os, Order.Waits]
  have hr : (rehearse 1 .null before (opened s)).session.revealing = true := by decide +kernel
  exact ⟨hs, hos, hr, orders_leave_a_reveal_alone (Clock.runs_rat 1) hs hsafe before os hos hr⟩

end Rehearsal
end VisualNovel
