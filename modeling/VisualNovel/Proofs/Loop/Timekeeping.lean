import Mathlib.Algebra.Order.Floor.Semiring
import Mathlib.Data.Rat.Floor
import VisualNovel.Proofs.Clock
import VisualNovel.Proofs.Loop.Frames
/-!
# The time of a game is accounted for

A game is updated in steps of one length. The time that a frame has for them is what the frame before
has left over and the time that it took itself, a quarter of a second at most. As many updates are made
as there are steps in it, up to the most in a frame; what is left is carried over, unless as many were
made as there is room for: then it is dropped. So over any number of frames no time is lost but what
was dropped.

Results:
* `Pace.planUpTo_eq`: the updates that a time has room for, and what is left of it, in closed form.
* `Regular.accounted`, `Regular.loop`: the accounts of one frame, and of every frame of the loop.
* `balanced_of_linked`, `Regular.balanced`: the accounts of any number of frames, by induction over
  them.
* `time_is_accounted_for`: all of it, for a game that has just begun.
-/
namespace VisualNovel

/-! ## The plan of a frame -/

namespace Pace
variable {h : Rat} {m : Nat} {total : Rat}

/-- The updates that a time has room for, in steps of `h` and `m` of them at most. -/
def due (h : Rat) (m : Nat) (total : Rat) : Nat := min m ⌊total / h⌋₊

/-- What is carried over of a time. -/
def left (h : Rat) (m : Nat) (total : Rat) : Rat :=
  if due h m total < m then total - due h m total * h else 0

theorem due_of_lt (hpos : 0 < h) (hlt : total < h) : due h m total = 0 := by
  have hfloor : ⌊total / h⌋₊ = 0 := Nat.floor_eq_zero.2 ((div_lt_one hpos).2 hlt)
  rw [due, hfloor, Nat.min_zero]

/-- If there is time for a step, there is one more than without it. -/
theorem due_of_le (hpos : 0 < h) (hle : h ≤ total) :
    due h (m + 1) total = due h m (total - h) + 1 := by
  have hone : 1 ≤ ⌊total / h⌋₊ := Nat.le_floor (by rwa [Nat.cast_one, one_le_div hpos])
  have hfloor : ⌊(total - h) / h⌋₊ = ⌊total / h⌋₊ - 1 := by
    rw [sub_div, div_self hpos.ne', Nat.floor_sub_one]
  rw [due, due, hfloor]
  omega

theorem planUpTo_eq (hpos : 0 < h) (m : Nat) (total : Rat) :
    planUpTo h m total = ⟨due h m total, left h m total, none⟩ := by
  induction m generalizing total with
  | zero => simp [planUpTo, left, due, Clock.zero]
  | succ m ih =>
    by_cases hle : h ≤ total
    · have hdue := due_of_le (m := m) hpos hle
      have hleft : left h m (total - h) = left h (m + 1) total := by
        unfold left
        rw [hdue]
        simp only [Nat.add_lt_add_iff_right]
        push_cast
        ring_nf
      have htest : Clock.le h total = true := decide_eq_true hle
      have hsub : Clock.sub total h = .ok (total - h) := rfl
      rw [planUpTo, if_pos htest, hsub]
      simp only [ih, Plan.later, hdue, hleft]
    · have htest : Clock.le h total = false := decide_eq_false hle
      have hdue : due h (m + 1) total = 0 := due_of_lt hpos (not_le.1 hle)
      rw [planUpTo, if_neg (Bool.eq_false_iff.1 htest)]
      simp [left, hdue]

theorem plan_eq (hpos : 0 < h) (hroom : 1 ≤ m) (total : Rat) :
    plan ⟨h, .upTo m⟩ total = ⟨due h m total, left h m total, none⟩ := by
  have hplan : plan ⟨h, .upTo m⟩ total = planUpTo h (max 1 m) total := rfl
  rw [hplan, max_eq_right hroom, planUpTo_eq hpos]

theorem clamp_eq (t : Rat) : clamp t = min t (1 / 4) := by
  have hlongest : (longest : Rat) = 1 / 4 := rfl
  unfold clamp
  rw [hlongest]
  by_cases hlt : 1 / 4 < t
  · have htest : Clock.lt (1 / 4) t = true := decide_eq_true hlt
    rw [if_pos htest, min_eq_right hlt.le]
  · have htest : Clock.lt (1 / 4) t = false := decide_eq_false hlt
    rw [if_neg (Bool.eq_false_iff.1 htest), min_eq_left (not_lt.1 hlt)]

theorem gather_eq (carried last now : Rat) :
    gather carried last now = .ok (carried + min (now - last) (1 / 4)) := by
  rw [← clamp_eq]
  rfl

/-- What is carried over is less than a step. -/
theorem left_bounds (hpos : 0 < h) (htotal : 0 ≤ total) :
    0 ≤ left h m total ∧ left h m total < h := by
  unfold left
  split
  · next hlt =>
    have hdue : due h m total = ⌊total / h⌋₊ := by
      unfold due at hlt ⊢
      omega
    have hle := (le_div_iff₀ hpos).1 (Nat.floor_le (div_nonneg htotal hpos.le))
    have hgt := (div_lt_iff₀ hpos).1 (Nat.lt_floor_add_one (total / h))
    rw [hdue]
    constructor <;> linarith
  · exact ⟨le_rfl, hpos⟩

end Pace
namespace Game

/-! ## Exact time -/

namespace Frame
variable {h : Rat} {m : Nat} {f : Frame Rat}

/-- The time that a frame counts as. -/
def spent (f : Frame Rat) : Rat := min (f.time - f.game.now) (1 / 4)

/-- The time that a frame has for updates. -/
def total (f : Frame Rat) : Rat := f.game.carried + f.spent

/-- What a frame drops, in which there is room for `m` updates in steps of `h`: what is left of its
time if it makes them all. -/
def dropped (h : Rat) (m : Nat) (f : Frame Rat) : Rat :=
  if f.updates.length < m then 0 else f.total - m * h

/-- The time of a frame is accounted for, in which there is room for `m` updates in steps of `h`. -/
structure Accounted (h : Rat) (m : Nat) (f : Frame Rat) : Prop where
  /-- Less than a step was carried into the frame. -/
  owed : 0 ≤ f.game.carried ∧ f.game.carried < h
  few : f.updates.length ≤ min m ⌊f.total / h⌋₊
  /-- If nothing breaks off, there are as many updates as there is time and room for. -/
  count : f.result.2 = none → f.updates.length = min m ⌊f.total / h⌋₊
  steps : ∀ g ∈ f.updates, g.pace.step = h
  /-- The time that is left goes to the next frame, unless as many were made as there is room for. -/
  carried : f.result.2 = none → f.result.1.carried =
    if f.updates.length < m then f.total - f.updates.length * h else 0
  /-- The next frame lasts from the time of this one. -/
  now : f.result.1.now = f.time
  shown : f.result.2 = none → f.drawn?.isSome = true
  /-- The drawing, which ends the frame, is somewhere in a step, before its end. -/
  drawn : ∀ g ∈ f.drawn?, f.result = finish g ∧
    ∃ alpha, g.pace.progress g.carried = .ok alpha ∧ 0 ≤ alpha ∧ alpha < 1

/-- What goes into a frame that does not break off comes out of it. -/
theorem Accounted.balance (hf : f.Accounted h m) (hnone : f.result.2 = none) :
    h * f.updates.length + f.result.1.carried = f.game.carried + f.spent - f.dropped h m := by
  have hcount : f.updates.length ≤ m := hf.few.trans (min_le_left _ _)
  rw [hf.carried hnone, dropped, total]
  split
  · ring
  · next hfull =>
    have hlength : f.updates.length = m := by omega
    rw [hlength]
    ring

end Frame

/-- A game keeps to a pace with room for `m` updates in steps of `h`, and less than a step is carried
over. -/
structure Regular (h : Rat) (m : Nat) (g : Game Rat) : Prop where
  pace : g.pace = ⟨h, .upTo m⟩
  owed : 0 ≤ g.carried ∧ g.carried < h

section
variable {h : Rat} {m : Nat} {f : Frame Rat} {g : Game Rat}

theorem Regular.kept (hg : f.game.Regular h m) (hpos : 0 < h) (hroom : 1 ≤ m) :
    f.Kept (Pace.due h m f.total) (Pace.left h m f.total) := by
  refine Frame.kept (Pace.gather_eq _ _ _) ?_
  rw [hg.pace, Pace.plan_eq hpos hroom]
  rfl

theorem Regular.total_nonneg (hg : f.game.Regular h m) (htime : f.game.now ≤ f.time) :
    0 ≤ f.total :=
  add_nonneg hg.owed.1 (le_min (sub_nonneg.2 htime) (by norm_num))

theorem Regular.accounted (hg : f.game.Regular h m) (hpos : 0 < h) (hroom : 1 ≤ m)
    (htime : f.game.now ≤ f.time) : f.Accounted h m := by
  have hkept := hg.kept hpos hroom
  obtain ⟨hnonneg, hlt⟩ := Pace.left_bounds (m := m) hpos (hg.total_nonneg htime)
  refine ⟨hg.owed, hkept.few, hkept.all, fun g hmem => ?_, fun hnone => ?_,
    congrArg (fun t => t.2.1) hkept.ends, hkept.shown, fun g hmem => ?_⟩
  · have hpace : g.pace = f.game.pace := congrArg Prod.fst (hkept.updated g hmem)
    rw [hpace, hg.pace]
  · have hcarried : f.result.1.carried = Pace.left h m f.total :=
      congrArg (fun t => t.2.2) hkept.ends
    rw [hcarried, hkept.all hnone]
    rfl
  · obtain ⟨hresult, htiming⟩ := hkept.drawn g hmem
    have hpace : g.pace = f.game.pace := congrArg Prod.fst htiming
    have hcarried : g.carried = Pace.left h m f.total := congrArg (fun t => t.2.2) htiming
    have hprogress : Pace.progress ⟨h, .upTo m⟩ (Pace.left h m f.total) =
        .ok (Pace.left h m f.total / h) := if_neg hpos.ne'
    refine ⟨hresult, Pace.left h m f.total / h, ?_, div_nonneg hnonneg hpos.le,
      (div_lt_one hpos).2 hlt⟩
    rw [hpace, hcarried, hg.pace, hprogress]

/-- The next frame finds a game that is in time, too. -/
theorem Regular.next (hg : f.game.Regular h m) (hpos : 0 < h) (hroom : 1 ≤ m)
    (htime : f.game.now ≤ f.time) : f.result.1.forget.Regular h m ∧ f.result.1.forget.now = f.time := by
  have htiming : f.result.1.forget.timing = (f.game.pace, f.time, Pace.left h m f.total) :=
    (hg.kept hpos hroom).ends
  have hcarried : f.result.1.forget.carried = Pace.left h m f.total :=
    congrArg (fun t => t.2.2) htiming
  refine ⟨⟨(congrArg Prod.fst htiming).trans hg.pace, ?_⟩, congrArg (fun t => t.2.1) htiming⟩
  rw [hcarried]
  exact Pace.left_bounds hpos (hg.total_nonneg htime)

/-- The time of every frame of the loop is accounted for. -/
theorem Regular.loop (hg : g.Regular h m) (hpos : 0 < h) (hroom : 1 ≤ m)
    {frames : List (Rat × List DeviceEvent)}
    (htimes : (g.now :: frames.map (·.1)).IsChain (· ≤ ·)) :
    ∀ f ∈ loop frames g, f.Accounted h m := by
  induction frames generalizing g with
  | nil =>
    refine List.forall_mem_singleton.2 ?_
    exact Regular.accounted (f := ⟨g, g.now, [.quit]⟩) hg hpos hroom le_rfl
  | cons fr frames ih =>
    obtain ⟨time, events⟩ := fr
    obtain ⟨htime, hrest⟩ := List.isChain_cons_cons.1 htimes
    have hfirst := Regular.accounted (f := ⟨g, time, events⟩) hg hpos hroom htime
    obtain ⟨hnext, hnow⟩ := Regular.next (f := ⟨g, time, events⟩) hg hpos hroom htime
    rw [Game.loop]
    refine List.forall_mem_cons.2 ⟨hfirst, ?_⟩
    have hresult : Frame.result ⟨g, time, events⟩ = g.frame time events := rfl
    rw [hresult] at hnext hnow
    split
    · exact List.forall_mem_nil _
    · next g' hframe =>
      rw [hframe] at hnext hnow
      split
      · refine ih hnext ?_
        rw [hnow]
        exact hrest
      · exact List.forall_mem_nil _

/-! ## Over any run -/

/-- What is carried over after frames, if some time was carried into the first. -/
def carriedAfter (start : Rat) (done : List (Frame Rat)) : Rat :=
  (done.getLast?.map (·.result.1.carried)).getD start

/-- The steps of the updates in some frames and what is carried over make up for the time that was
carried into the first and the time of the frames, except for what was dropped. -/
def Balanced (h : Rat) (m : Nat) (start : Rat) (done : List (Frame Rat)) : Prop :=
  h * (done.flatMap Frame.updates).length + carriedAfter start done =
    start + (done.map Frame.spent).sum - (done.map (Frame.dropped h m)).sum

theorem balanced_nil (start : Rat) : Balanced h m start [] := by
  simp [Balanced, carriedAfter]

theorem Balanced.cons {done : List (Frame Rat)} (hf : f.Accounted h m) (hnone : f.result.2 = none)
    (hdone : Balanced h m f.result.1.carried done) : Balanced h m f.game.carried (f :: done) := by
  have hbalance := hf.balance hnone
  have hcarried : carriedAfter f.game.carried (f :: done) =
      carriedAfter f.result.1.carried done := by
    cases done <;> simp [carriedAfter, List.getLast?_cons]
  unfold Balanced at hdone ⊢
  rw [hcarried, List.flatMap_cons, List.length_append, List.map_cons, List.map_cons, List.sum_cons,
    List.sum_cons]
  push_cast
  linarith

/-- The accounts of frames in each of which the next finds what the one before has left. -/
theorem balanced_of_linked {start : Rat} {done : List (Frame Rat)}
    (hdone : ∀ f ∈ done, f.Accounted h m ∧ f.result.2 = none)
    (hstart : ∀ f ∈ done.head?, f.game.carried = start)
    (hlinked : done.IsChain fun f next => next.game = f.result.1.forget) :
    Balanced h m start done := by
  induction done generalizing start with
  | nil => exact balanced_nil start
  | cons f done ih =>
    obtain ⟨⟨hf, hnone⟩, hrest⟩ := List.forall_mem_cons.1 hdone
    obtain ⟨hnext, hlinked⟩ := List.isChain_cons.1 hlinked
    obtain rfl : f.game.carried = start := hstart f rfl
    refine .cons hf hnone (ih hrest (fun next hmem => ?_) hlinked)
    rw [hnext next hmem]
    rfl

theorem Regular.balanced (hg : g.Regular h m) (hpos : 0 < h) (hroom : 1 ≤ m)
    {frames : List (Rat × List DeviceEvent)}
    (htimes : (g.now :: frames.map (·.1)).IsChain (· ≤ ·)) (k : Nat) :
    Balanced h m g.carried ((completed frames g).take k) := by
  refine balanced_of_linked (fun f hf => ?_) (fun f hf => ?_) ((completed_linked frames g).take k)
  · obtain ⟨hmem, hnone⟩ := List.mem_filter.1 (List.mem_of_mem_take hf)
    exact ⟨hg.loop hpos hroom htimes f hmem, Option.isNone_iff_eq_none.1 hnone⟩
  · rw [List.head?_take] at hf
    split at hf
    · contradiction
    · rw [completed_begins f hf]

end

/-- **The time of a game is accounted for.** A game is updated in steps of `h`, with room for `m` of
them in a frame, and the times of its frames do not go back. The frames of the loop are those of its
course, and their updates are all there are. A frame that does not break off makes as many updates as
there are steps in its time, up to `m`; what is left is carried over, or nothing if it makes `m`; and
whenever a game is drawn, that is somewhere in a step, before its end. After any number of frames, the
steps of the updates and what is carried over make up for the time of the frames, each a quarter of a
second at most, except for what was dropped in those that made `m` updates. -/
theorem time_is_accounted_for {h : Rat} {m : Nat} (hpos : 0 < h) (hroom : 1 ≤ m)
    (settings : GameSettings) (time : Rat) (house : House Rat) (prepare : House Rat → House Rat)
    (frames : List (Rat × List DeviceEvent))
    (htimes : (time :: frames.map (·.1)).IsChain (· ≤ ·)) :
    let g := ((open_ settings ⟨h, .upTo m⟩ time house).withHouse prepare).begin
    (play frames g).frames = (completed frames g).map (·.result.1) ∧
    updates frames g = (loop frames g).flatMap Frame.updates ∧
    (∀ f ∈ loop frames g, f.Accounted h m) ∧
    ∀ k, let done := (completed frames g).take k
      h * (done.flatMap Frame.updates).length + carriedAfter 0 done =
        (done.map Frame.spent).sum - (done.map (Frame.dropped h m)).sum := by
  intro g
  have hcarried : g.carried = 0 := by
    show ((0 : Nat) : Rat) / ((1 : Nat) : Rat) = 0
    rw [Nat.cast_zero, zero_div]
  have hregular : g.Regular h m := ⟨rfl, by rw [hcarried]; exact ⟨le_rfl, hpos⟩⟩
  refine ⟨frames_play frames g, updates_eq_loop frames g, hregular.loop hpos hroom htimes,
    fun k => ?_⟩
  have hbalanced := hregular.balanced hpos hroom htimes k
  rw [hcarried, Balanced, zero_add] at hbalanced
  exact hbalanced

/-- The game of a scene that writes down what it is told, with sixty updates a second. -/
def probeGame : Game Rat :=
  ((open_ {} ⟨1 / 60, .upTo 5⟩ 0 {}).withHouse (·.pushOther .probe)).begin

/-- A frame of one step, one of a step and a half, and one that is much too long. -/
def probeFrames : List (Rat × List DeviceEvent) := [(1 / 60, []), (1 / 24, []), (1, [])]

/-- The first two frames make one update each. The third counts as a quarter of a second, makes five
and drops the rest; and then the window is closed. -/
theorem probe_keeps_time :
    let done := (completed probeFrames probeGame).take 3
    (0 : Rat) < 1 / 60 ∧ 1 ≤ 5 ∧ ((0 : Rat) :: probeFrames.map (·.1)).IsChain (· ≤ ·) ∧
    (completed probeFrames probeGame).map (·.updates.length) = [1, 1, 5, 0] ∧
    (completed probeFrames probeGame).map (·.result.1.carried) = [0, 1 / 120, 0, 0] ∧
    (completed probeFrames probeGame).map (·.dropped (1 / 60) 5) = [0, 0, 7 / 40, 0] ∧
    (∀ f ∈ loop probeFrames probeGame, f.Accounted (1 / 60) 5) ∧
    1 / 60 * (done.flatMap Frame.updates).length + carriedAfter 0 done =
      (done.map Frame.spent).sum - (done.map (Frame.dropped (1 / 60) 5)).sum := by
  intro done
  have hpos : (0 : Rat) < 1 / 60 := by norm_num
  have hroom : 1 ≤ 5 := by decide
  have htimes : ((0 : Rat) :: probeFrames.map (·.1)).IsChain (· ≤ ·) := by
    simp only [probeFrames, List.map_cons, List.map_nil, List.isChain_cons_cons]
    norm_num
  obtain ⟨-, -, haccounted, hbalance⟩ :=
    time_is_accounted_for hpos hroom {} 0 {} (·.pushOther .probe) probeFrames htimes
  exact ⟨hpos, hroom, htimes, by decide +kernel, by decide +kernel, by decide +kernel, haccounted,
    hbalance 3⟩

/-- What the scene is told of the frames: it is drawn at the beginning of a step, half way into one,
and twice at the beginning again. -/
example : (play probeFrames probeGame).frames.map (fun g => g.house.marks.filterMap fun
      | .probeRendered alpha => some alpha
      | _ => none) = [[0], [1 / 2], [0], [0]] := by
  decide +kernel

end Game
end VisualNovel
