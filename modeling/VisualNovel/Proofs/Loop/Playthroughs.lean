import VisualNovel.Proofs.House.Runs
import VisualNovel.Proofs.House.Showing
/-!
# Playthroughs leave nothing behind

A game that shows a novel goes through any number of playthroughs: each time a story ends, a fresh
screen takes the place of the old one. As long as nothing breaks off, each update of the loop leaves
one screen on the stack, which alone listens to the player beside the game; of the screens before it
nothing is left but the sounds that the first one set up (`ShowsOne`). When the game has ended,
nothing is left of any screen (`ShowsNone`), and each one that came to the top was removed for good
once (`nothing_leaks`).

The updates that a game makes are told by the games that they find (`updates`): the loop is followed
frame by frame, and goes on as long as it does. The last update clears the stack (`close_eq`).
-/
namespace VisualNovel

namespace Attempt
variable {σ ε : Type} {f : σ → Attempt σ ε}

/-- The worlds that are found when the same is done a number of times, up to the one in which it
breaks off. -/
def found (f : σ → Attempt σ ε) : Nat → σ → List σ
  | 0, _ => []
  | n + 1, s => s :: match f s with
    | (s, none) => found f n s
    | (_, some _) => []

theorem times_succ (f : σ → Attempt σ ε) (n : Nat) (s : σ) :
    times f (n + 1) s = (f s).andThen (times f n) := rfl

theorem found_succ {s s' : σ} (h : f s = (s', none)) (n : Nat) :
    found f (n + 1) s = s :: found f n s' := by
  rw [found, h]

theorem found_last {s s' : σ} {err : ε} (h : f s = (s', some err)) (n : Nat) :
    found f (n + 1) s = [s] := by
  rw [found, h]

/-- What comes of it is what comes of the last time. -/
theorem times_eq_last (f : σ → Attempt σ ε) (n : Nat) (s : σ) :
    times f n s = ((found f n s).getLast?.map f).getD (s, none) := by
  induction n generalizing s with
  | zero => rfl
  | succ n ih =>
    rw [times_succ]
    cases hr : f s with
    | mk s' err =>
      cases err with
      | some err => simp [found_last hr, andThen, hr]
      | none =>
        rw [found_succ hr, andThen_none, ih]
        cases found f n s' with
        | nil => simp [hr]
        | cons x xs => simp [List.getLast?_cons]

end Attempt

namespace Game
open House
variable {τ : Type} [Clock τ] {e : Edition τ} {up : Bool} {n : Nat} {g : Game τ}

/-! ## The updates of a game -/

/-- The house whose scenes are updated when a game is updated: the changes of the input were told. -/
def heard (g : Game τ) : House τ :=
  g.input.update.changes.foldl (fun h q => (h.publish q).1) g.house

/-- What came of something in the house of a game. -/
def having (g : Game τ) (r : Attempt (House τ) HouseError) : Attempt (Game τ) HouseError :=
  ({ g with house := r.1 }, r.2)

omit [Clock τ] in
theorem inHouse_eq (f : House τ → Attempt (House τ) HouseError) (g : Game τ) :
    g.inHouse f = g.having (f g.house) := by
  unfold inHouse
  generalize f g.house = r
  rfl

theorem update_eq (g : Game τ) :
    g.update = { g with input := g.input.update }.having (g.heard.update g.pace.step) := by
  unfold update heard withHouse
  rw [inHouse_eq]
  rfl

/-- The games that the updates of a frame find. -/
def updated (time : τ) (events : List DeviceEvent) (g : Game τ) : List (Game τ) :=
  match Pace.gather g.carried g.now time with
  | .error _ => []
  | .ok total =>
    let plan := g.pace.plan total
    match Attempt.inTurn takeIn events { g with now := time, carried := plan.carried } with
    | (g, none) => Attempt.found update plan.updates g
    | (_, some _) => []

/-- The games that are found after a frame, if the game is still running. -/
def further (r : Attempt (Game τ) HouseError) (next : Game τ → List (Game τ)) : List (Game τ) :=
  match r with
  | (_, some _) => []
  | (g, none) => if g.house.running then next g.forget else []

/-- The games that the updates of the loop find, frame by frame. -/
def updates : List (τ × List DeviceEvent) → Game τ → List (Game τ)
  | [], g => g.updated g.now [.quit]
  | (time, events) :: frames, g =>
    g.updated time events ++ further (g.frame time events) (updates frames)

/-- A course with one frame in front of it. -/
def Course.after (g : Game τ) (c : Course τ) : Course τ := { c with frames := g :: c.frames }

/-- The course of a game that ends without another frame. -/
def Course.ended (r : Attempt (Game τ) HouseError) : Course τ := ⟨[], r.1, r.2⟩

section
variable {next : Game τ → Course τ} {us : Game τ → List (Game τ)}

theorem andThen_fails (g : Game τ) (err : HouseError) :
    andThen (g, some err) next = ⟨[], g, some err⟩ := rfl

theorem andThen_eq (g : Game τ) (next : Game τ → Course τ) : andThen (g, none) next =
    Course.after g (if g.house.running then next g.forget else .ended g.forget.close) := by
  rw [andThen]
  obtain ⟨last, error⟩ := g.forget.close
  rfl

end

/-- The house whose scenes are updated for the last time, when a game ends. -/
def parting (g : Game τ) : House τ :=
  ((g.house.report (Log.info "Shutting down")).publish (.plain .gameQuit)).1.ask .clear

theorem close_eq (g : Game τ) : g.close = (g.having (g.parting.update (Clock.origin τ))).andThen
    fun g => (g.withHouse (·.leave (.window .close)), none) := by
  unfold close parting withHouse
  simp only [inHouse_eq]
  rfl

/-- The game that ends after the last of its frames. -/
def Course.ending? (c : Course τ) : Option (Game τ) := c.frames.getLast?.filter (!·.house.running)

/-- What befalls the scenes in all updates of a game. -/
def chronicle (frames : List (τ × List DeviceEvent)) (g : Game τ) : List (SceneEvent SceneId) :=
  (updates frames g).flatMap (fun g => g.heard.chronicle g.pace.step) ++
    ((play frames g).ending?.map fun g => g.forget.parting.chronicle (Clock.origin τ)).getD []

/-! ## What a house is to show -/

/-- A game has gone on: what it shows now, and what befell its scenes meanwhile. -/
structure Goes (e : Edition τ) (up : Bool) (n : Nat) (g : Game τ) (up' : Bool) (n' : Nat)
    (g' : Game τ) (ms : List (SceneEvent SceneId)) : Prop where
  shown : Shown e up' n' g'.house
  stopped : g.house.running = false → g'.house.running = false
  lives : lives up n ++ ms = lives up' n'

variable {up' up'' : Bool} {n' n'' : Nat} {g' g'' : Game τ} {ms ms' : List (SceneEvent SceneId)}

omit [Clock τ] in
theorem Goes.trans (h₁ : Goes e up n g up' n' g' ms) (h₂ : Goes e up' n' g' up'' n'' g'' ms') :
    Goes e up n g up'' n'' g'' (ms ++ ms') :=
  ⟨h₂.shown, h₂.stopped ∘ h₁.stopped, by rw [← List.append_assoc, h₁.lives, h₂.lives]⟩

/-- A game that was opened and for which a screen of an edition was asked. -/
def opened (settings : GameSettings) (pace : Pace τ) (time : τ) (e : Edition τ) (disk : Files.Disk)
    (log : List Log.Entry) : Game τ :=
  ((Game.open_ settings pace time { disk, log }).withHouse (·.pushScreen e)).begin

end Game
end VisualNovel
