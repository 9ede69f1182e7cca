import Mathlib.Data.List.Chain
import VisualNovel.Proofs.Loop.Playthroughs
/-!
# The frames of a game

The loop of a game is told frame by frame (`loop`), each with the game that it finds. A frame plans its
updates by the time that it has, before anything is done in it. What a device reports, an update and a
drawing leave alone how a game keeps its time (`timing`); so all of them find it as the frame has
planned it, and what is left at the end is what was planned.

Results:
* `completed_linked`: each frame finds the game that the one before has left.
* `updates_eq_loop`, `frames_play`: the updates of the loop, and the games at the ends of its frames.
* `Frame.kept`: how many updates there are in a frame, and what they and its drawing find.
-/
namespace VisualNovel

namespace Attempt
variable {σ ε : Type} {f : σ → Attempt σ ε} {P : σ → Prop}

/-- If nothing breaks off, the same is done as often as it is to be. -/
theorem length_found (n : Nat) (s : σ) :
    (found f n s).length ≤ n ∧ ((times f n s).2 = none → (found f n s).length = n) := by
  induction n generalizing s with
  | zero => exact ⟨Nat.le_refl 0, fun _ => rfl⟩
  | succ n ih =>
    rw [times_succ]
    cases hs : f s with
    | mk s' err =>
      cases err with
      | some err =>
        rw [found_last hs]
        exact ⟨Nat.le_add_left 1 n, nofun⟩
      | none =>
        obtain ⟨hle, heq⟩ := ih s'
        rw [found_succ hs, andThen_none, List.length_cons]
        exact ⟨Nat.succ_le_succ hle, fun hnone => by rw [heq hnone]⟩

/-- What each time keeps, is found each time and at the end. -/
theorem found_keeps (hf : ∀ s, P s → P (f s).1) (n : Nat) {s : σ} (hs : P s) :
    (∀ u ∈ found f n s, P u) ∧ P (times f n s).1 := by
  induction n generalizing s with
  | zero => exact ⟨List.forall_mem_nil _, hs⟩
  | succ n ih =>
    have hnext := hf s hs
    rw [times_succ]
    cases hr : f s with
    | mk s' err =>
      rw [hr] at hnext
      cases err with
      | some err =>
        rw [found_last hr]
        exact ⟨List.forall_mem_singleton.2 hs, hnext⟩
      | none =>
        obtain ⟨hall, hlast⟩ := ih hnext
        rw [found_succ hr, andThen_none]
        exact ⟨List.forall_mem_cons.2 ⟨hs, hall⟩, hlast⟩

/-- What has been done, if nothing has broken off. -/
def done? (r : Attempt σ ε) : Option σ := if r.2.isNone then some r.1 else none

theorem done?_eq_some {r : Attempt σ ε} {s : σ} : r.done? = some s ↔ r = (s, none) := by
  obtain ⟨s', err⟩ := r
  cases err <;> simp [done?]

theorem isSome_done? (r : Attempt σ ε) : r.done?.isSome = r.2.isNone := by
  unfold done?
  split
  · next h => exact h.symm
  · next h => exact (Bool.eq_false_iff.2 h).symm

theorem none_of_andThen {r : Attempt σ ε} {next : σ → Attempt σ ε}
    (h : (r.andThen next).2 = none) : r.2 = none := by
  obtain ⟨s, err⟩ := r
  cases err with
  | none => rfl
  | some err => exact h

/-- The worlds that are found when, after something else, the same is done a number of times. -/
def foundAfter (r : Attempt σ ε) (f : σ → Attempt σ ε) (n : Nat) : List σ :=
  (r.done?.map (found f n)).getD []

theorem length_foundAfter (r : Attempt σ ε) (f : σ → Attempt σ ε) (n : Nat) :
    (r.foundAfter f n).length ≤ n ∧
      ((r.andThen (times f n)).2 = none → (r.foundAfter f n).length = n) := by
  obtain ⟨s, err⟩ := r
  cases err with
  | none => exact length_found n s
  | some err => exact ⟨Nat.zero_le n, nofun⟩

theorem foundAfter_keeps (hf : ∀ s, P s → P (f s).1) (n : Nat) {r : Attempt σ ε} (hr : P r.1) :
    (∀ u ∈ r.foundAfter f n, P u) ∧ P (r.andThen (times f n)).1 := by
  obtain ⟨s, err⟩ := r
  cases err with
  | none => exact found_keeps hf n hr
  | some err => exact ⟨List.forall_mem_nil _, hr⟩

end Attempt

namespace Game
variable {τ : Type} [Clock τ] {g : Game τ}

/-! ## What leaves the time alone -/

/-- How a game keeps its time: its pace, the time of its last frame, and what is carried over. -/
def timing (g : Game τ) : Pace τ × τ × τ := (g.pace, g.now, g.carried)

omit [Clock τ] in
/-- The house and the input of a game are no matter of its time. -/
theorem timing_with (h : House τ) (i : Input) (g : Game τ) :
    ({ g with house := h, input := i } : Game τ).timing = g.timing := rfl

theorem takeIn_timing (e : DeviceEvent) (g : Game τ) : (g.takeIn e).1.timing = g.timing := by
  unfold takeIn
  split
  · exact timing_with _ g.input g
  · exact timing_with _ g.input g
  · rfl
  · exact timing_with _ _ g

theorem update_timing (g : Game τ) : g.update.1.timing = g.timing := by
  rw [update_eq]
  exact timing_with _ _ g

theorem draw_timing (g : Game τ) : g.draw.1.timing = g.timing := by
  unfold draw
  split
  · rfl
  · simp only [inHouse_eq]
    refine Attempt.andThen_keeps (P := fun g' : Game τ => g'.timing = g.timing) ?_ fun g' h => ?_
    · exact timing_with _ g.input g
    · exact (timing_with _ g'.input g').trans h

/-! ## The frames of the loop -/

/-- A frame of the loop: the game that it finds, its time, and what the devices report. -/
structure Frame (τ : Type) where
  game : Game τ
  time : τ
  events : List DeviceEvent

namespace Frame

/-- What comes of a frame. -/
def result (f : Frame τ) : Attempt (Game τ) HouseError := f.game.frame f.time f.events

/-- The games that the updates of a frame find. -/
def updates (f : Frame τ) : List (Game τ) := f.game.updated f.time f.events

/-- Ends a frame: the game is drawn, and the clock ticks. -/
def finish (g : Game τ) : Attempt (Game τ) HouseError :=
  g.draw.andThen fun g => (g.withHouse (·.leave (.window (.tick g.rate))), none)

/-- The game of a frame when the devices have reported, with what it is to carry over. -/
def taken (f : Frame τ) (carried : τ) : Attempt (Game τ) HouseError :=
  Attempt.inTurn takeIn f.events { f.game with now := f.time, carried }

/-- The game that the drawing of a frame finds, unless the frame breaks off before. -/
def drawn? (f : Frame τ) : Option (Game τ) :=
  match Pace.gather f.game.carried f.game.now f.time with
  | .error _ => none
  | .ok total =>
    let plan := f.game.pace.plan total
    if plan.fault.isSome then none
    else ((f.taken plan.carried).andThen (Attempt.times update plan.updates)).done?

end Frame

/-- The frames that the loop comes to. -/
def loop : List (τ × List DeviceEvent) → Game τ → List (Frame τ)
  | [], g => [⟨g, g.now, [.quit]⟩]
  | (time, events) :: frames, g =>
    ⟨g, time, events⟩ ::
      match g.frame time events with
      | (_, some _) => []
      | (g, none) => if g.house.running then loop frames g.forget else []

/-- The frames of the loop that do not break off. -/
def completed (frames : List (τ × List DeviceEvent)) (g : Game τ) : List (Frame τ) :=
  (loop frames g).filter (·.result.2.isNone)

/-- The updates of the loop are those of its frames. -/
theorem updates_eq_loop (frames : List (τ × List DeviceEvent)) (g : Game τ) :
    updates frames g = (loop frames g).flatMap Frame.updates := by
  induction frames generalizing g with
  | nil => rw [updates, loop, List.flatMap_singleton]; rfl
  | cons fr frames ih =>
    obtain ⟨time, events⟩ := fr
    rw [updates, loop, List.flatMap_cons]
    congr 1
    unfold further
    cases g.frame time events with
    | mk g' err =>
      cases err with
      | some err => rfl
      | none =>
        dsimp only
        split
        · exact ih g'.forget
        · rfl

theorem frames_andThen (g : Game τ) (next : Game τ → Course τ) : (andThen (g, none) next).frames =
    g :: if g.house.running then (next g.forget).frames else [] := by
  rw [andThen_eq, Course.after]
  split <;> rfl

section
variable {time : τ} {events : List DeviceEvent} {frames : List (τ × List DeviceEvent)} {g' : Game τ}

/-- When time stands still there is one more frame. -/
theorem completed_nil (g : Game τ) : completed [] g =
    if (g.frame g.now [.quit]).2.isNone then [⟨g, g.now, [.quit]⟩] else [] := by
  unfold completed
  rw [loop, List.filter_cons, List.filter_nil]
  rfl

theorem completed_fails {err : HouseError} (h : g.frame time events = (g', some err)) :
    completed ((time, events) :: frames) g = [] := by
  have hresult : Frame.result ⟨g, time, events⟩ = (g', some err) := h
  simp [completed, loop, hresult, h]

theorem completed_cons (h : g.frame time events = (g', none)) :
    completed ((time, events) :: frames) g =
      ⟨g, time, events⟩ :: if g'.house.running then completed frames g'.forget else [] := by
  have hresult : Frame.result ⟨g, time, events⟩ = (g', none) := h
  simp only [completed, loop, h]
  rw [List.filter_cons_of_pos (by rw [hresult]; rfl)]
  split <;> rfl

theorem completed_begins : ∀ f ∈ (completed frames g).head?, f.game = g := by
  cases frames with
  | nil =>
    rw [completed_nil]
    split <;> simp
  | cons fr frames =>
    obtain ⟨time, events⟩ := fr
    cases hframe : g.frame time events with
    | mk g' err =>
      cases err with
      | some err => simp [completed_fails hframe]
      | none => simp [completed_cons hframe]

/-- Each of the frames finds the game that the one before has left. -/
theorem completed_linked (frames : List (τ × List DeviceEvent)) (g : Game τ) :
    (completed frames g).IsChain (fun f next => next.game = f.result.1.forget) := by
  induction frames generalizing g with
  | nil =>
    rw [completed_nil]
    split
    · exact List.isChain_singleton _
    · exact List.isChain_nil
  | cons fr frames ih =>
    obtain ⟨time, events⟩ := fr
    cases hframe : g.frame time events with
    | mk g' err =>
      cases err with
      | some err =>
        rw [completed_fails hframe]
        exact List.isChain_nil
      | none =>
        have hresult : Frame.result ⟨g, time, events⟩ = (g', none) := hframe
        rw [completed_cons hframe]
        split
        · refine List.isChain_cons.2 ⟨fun next hnext => ?_, ih g'.forget⟩
          rw [hresult]
          exact completed_begins next hnext
        · exact List.isChain_singleton _

end

/-- The games at the ends of the frames, as the course of the game has them. -/
theorem frames_play (frames : List (τ × List DeviceEvent)) (g : Game τ) :
    (play frames g).frames = (completed frames g).map (·.result.1) := by
  induction frames generalizing g with
  | nil =>
    rw [play, completed_nil]
    cases hframe : g.frame g.now [.quit] with
    | mk g' err =>
      cases err with
      | some err => rfl
      | none =>
        have hresult : Frame.result ⟨g, g.now, [.quit]⟩ = (g', none) := hframe
        rw [frames_andThen, ite_self, Option.isNone_none, if_pos rfl, List.map_singleton, hresult]
  | cons fr frames ih =>
    obtain ⟨time, events⟩ := fr
    rw [play]
    cases hframe : g.frame time events with
    | mk g' err =>
      cases err with
      | some err => rw [completed_fails hframe, andThen_fails, List.map_nil]
      | none =>
        have hresult : Frame.result ⟨g, time, events⟩ = (g', none) := hframe
        rw [completed_cons hframe, frames_andThen, List.map_cons, hresult, ih, apply_ite (List.map _)]
        rfl

namespace Frame

/-- What a frame does by its plan: its updates and its drawing, which ends it, find the game as it was
planned, and if it does not break off there are as many updates as it has planned. -/
structure Kept (f : Frame τ) (count : Nat) (left : τ) : Prop where
  few : f.updates.length ≤ count
  all : f.result.2 = none → f.updates.length = count
  updated : ∀ g ∈ f.updates, g.timing = (f.game.pace, f.time, left)
  drawn : ∀ g ∈ f.drawn?, f.result = finish g ∧ g.timing = (f.game.pace, f.time, left)
  shown : f.result.2 = none → f.drawn?.isSome = true
  ends : f.result.1.timing = (f.game.pace, f.time, left)

section
variable {f : Frame τ} {total left : τ} {count : Nat}
  (hgather : Pace.gather f.game.carried f.game.now f.time = .ok total)
  (hplan : f.game.pace.plan total = ⟨count, left, none⟩)

theorem taken_timing (f : Frame τ) (left : τ) :
    (f.taken left).1.timing = (f.game.pace, f.time, left) :=
  Attempt.inTurn_keeps (P := fun g : Game τ => g.timing = (f.game.pace, f.time, left))
    (fun e g h => (takeIn_timing e g).trans h) f.events rfl

include hgather hplan

theorem updates_eq : f.updates = (f.taken left).foundAfter update count := by
  unfold updates Game.updated taken
  simp only [hgather, hplan]
  generalize Attempt.inTurn takeIn f.events { f.game with now := f.time, carried := left } = r
  obtain ⟨g, err⟩ := r
  cases err <;> rfl

theorem drawn?_eq : f.drawn? = ((f.taken left).andThen (Attempt.times update count)).done? := by
  unfold drawn?
  simp only [hgather, hplan]
  rfl

theorem result_eq :
    f.result = ((f.taken left).andThen (Attempt.times update count)).andThen finish := by
  unfold result frame taken
  simp only [hgather, hplan]
  rw [Attempt.andThen_assoc]
  rfl

theorem kept : f.Kept count left := by
  have hupdates := updates_eq hgather hplan
  have hdrawn := drawn?_eq hgather hplan
  have hresult := result_eq hgather hplan
  obtain ⟨hle, heq⟩ := (f.taken left).length_foundAfter update count
  obtain ⟨hfound, hmade⟩ := Attempt.foundAfter_keeps
    (P := fun g : Game τ => g.timing = (f.game.pace, f.time, left))
    (fun g h => (update_timing g).trans h) count (f.taken_timing left)
  rw [← hupdates] at hle heq hfound
  have hnone (h : f.result.2 = none) :
      ((f.taken left).andThen (Attempt.times update count)).2 = none :=
    Attempt.none_of_andThen (hresult ▸ h)
  refine ⟨hle, fun h => heq (hnone h), hfound, fun g hg => ?_, fun h => ?_, ?_⟩
  · rw [Option.mem_def, hdrawn, Attempt.done?_eq_some] at hg
    rw [hg] at hmade hresult
    exact ⟨hresult, hmade⟩
  · rw [hdrawn, Attempt.isSome_done?, hnone h]
    rfl
  · rw [hresult]
    refine Attempt.andThen_keeps (P := fun d : Game τ => d.timing = (f.game.pace, f.time, left))
      hmade fun g hg => ?_
    refine Attempt.andThen_keeps (P := fun d : Game τ => d.timing = (f.game.pace, f.time, left))
      ((draw_timing g).trans hg) fun d hd => ?_
    exact (timing_with _ d.input d).trans hd

end

end Frame

end Game
end VisualNovel
