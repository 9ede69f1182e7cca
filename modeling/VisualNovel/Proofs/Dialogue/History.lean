import VisualNovel.Notice
import VisualNovel.Proofs.Story.Plain
/-!
# The history of a dialogue

Seen from outside, a dialogue is the list of the notices it published and the number of times its
owner was told that a story has ended. `History` says which such lists there can be, together with
the story as far as it has come and the moment between two notices. A `Course` says where a history
starts: with nothing, or with one story that was begun and is the only one.

Results:
* `History.plays`: the lines and choices of a history with one story are those of a plain player.
* `History.ends`: a story that was begun ends at most once, and the owner is told each time.
-/
namespace VisualNovel

/-- Whether events are about a dialogue. -/
def Topic.isNovel : Topic → Bool
  | dialogueStarted | lineStarted | lineRevealed | choicesShown | choiceMade | dialogueEnded => true
  | _ => false

/-- Where a dialogue stands between two notices. -/
inductive Moment where
  /-- No dialogue is running. -/
  | away
  /-- A dialogue is running, and no line is under way. -/
  | pause
  /-- A line is under way. -/
  | line (text : String)
  /-- The dialogue has ended, which its owner has yet to be told. -/
  | untold
  deriving DecidableEq, Repr

/-- What a history runs on. -/
structure Course where
  /-- The story that was begun, if there may be no other one. -/
  only : Option Story.Graph
  /-- How often the owner is told of each end. -/
  bow : Nat

open Story (Player) in
/-- What a dialogue published, how often its owner was told of an end, the story and the moment. -/
inductive History (c : Course) : List Notice → Nat → Option Player → Moment → Prop where
  | blank (hc : c.only = none) : History c [] 0 none .away
  | opening {g} (hc : c.only = some g) :
      History c [.plain .dialogueStarted] 0 (some (Player.start g).1) .pause
  | begun {ns k s} (h : History c ns k s .away) (hc : c.only = none) (g : Story.Graph) :
      History c (ns ++ [.plain .dialogueStarted]) k (some (Player.start g).1) .pause
  | read {ns k p line p' log} (h : History c ns k (some p) .pause)
      (hp : p.continue? = .ok (line, p', log)) :
      History c (ns ++ [.lineStarted line.text line.tags]) k (some p') (.line line.text)
  | revealed {ns k s text} (h : History c ns k s (.line text)) :
      History c (ns ++ [.lineRevealed text]) k s .pause
  | offered {ns k s} (h : History c ns k s .pause) (cs : List Choice) :
      History c (ns ++ [.choicesShown cs]) k s .pause
  | chosen {ns k p p' log} {choice : Choice} (h : History c ns k (some p) .pause)
      (hw : p.canContinue = false) (hp : p.choose? choice.index = .ok (p', log)) :
      History c (ns ++ [.choiceMade choice]) k (some p') .pause
  | ended {ns k s} (h : History c ns k s .pause) :
      History c (ns ++ [.plain .dialogueEnded]) k s .untold
  | told {ns k s} (h : History c ns k s .untold) : History c ns (k + c.bow) s .away
  | dropped {ns k s m} (h : History c ns k s m) (hm : m ≠ .untold) :
      History c ns k s .away

namespace History
variable {c : Course} {ns : List Notice} {k : Nat} {s : Option Story.Player} {m : Moment}

theorem story (h : History c ns k s m) (hm : m ≠ .away) : ∃ p, s = some p := by
  induction h with
  | blank | told | dropped => exact absurd rfl hm
  | opening | begun | read | chosen => exact ⟨_, rfl⟩
  | revealed _ ih | offered _ _ ih | ended _ ih => exact ih nofun

end History

/-! ## Lines and choices -/

/-- The beat a notice tells of. -/
def Notice.beat? : Notice → Option Story.Beat
  | ⟨.lineStarted, .line text tags⟩ => some (.line text tags)
  | ⟨.choiceMade, .choice index _⟩ => some (.choice index)
  | _ => none

/-- The beats that notices tell of. -/
def beats (ns : List Notice) : List Story.Beat := ns.filterMap Notice.beat?

theorem beats_append_none {n : Notice} (h : n.beat? = none) (ns : List Notice) :
    beats (ns ++ [n]) = beats ns := by
  unfold beats
  rw [List.filterMap_append, List.filterMap_cons_none h]
  exact List.append_nil _

theorem beats_append_some {n : Notice} {b : Story.Beat} (h : n.beat? = some b)
    (ns : List Notice) : beats (ns ++ [n]) = beats ns ++ [b] := by
  unfold beats
  rw [List.filterMap_append, List.filterMap_cons_some h]
  rfl

namespace History
open Story (Player Beat)

variable {c : Course} {ns : List Notice} {k : Nat} {s : Option Player} {m : Moment}

/-- What is played of an only story is what a plain player plays that is told the same choices in
advance. -/
theorem plays {g : Story.Graph} (hc : c.only = some g) (h : History c ns k s m) :
    ∃ p, s = some p ∧
      (Player.start g).1.play (beats ns).length ((beats ns).filterMap Beat.pick?) =
        (beats ns, p) := by
  induction h with
  | blank hnone | begun _ hnone =>
    rw [hc] at hnone
    cases hnone
  | opening hg =>
    rw [hc] at hg
    cases hg
    exact ⟨_, rfl, rfl⟩
  | @read ns k p line p' log _ hp ih =>
    obtain ⟨q, hq, hplay⟩ := ih
    cases hq
    refine ⟨p', rfl, ?_⟩
    rw [beats_append_some rfl]
    exact Player.play_append hplay (Player.beat?_read hp [])
  | @chosen ns k p p' log choice _ hw hp ih =>
    obtain ⟨q, hq, hplay⟩ := ih
    cases hq
    refine ⟨p', rfl, ?_⟩
    rw [beats_append_some (b := .choice choice.index) rfl]
    exact Player.play_append hplay (Player.beat?_pick hw hp [])
  | revealed _ ih | ended _ ih | offered _ _ ih =>
    obtain ⟨q, hq, hplay⟩ := ih
    exact ⟨q, hq, by rw [beats_append_none rfl]; exact hplay⟩
  | told _ ih | dropped _ _ ih => exact ih

end History

/-! ## The pace of lines -/

/-- The line that is under way after a notice, if the notice may come when `line?` is. -/
def Notice.pace (line? : Option String) : Notice → Option (Option String)
  | ⟨.dialogueStarted, _⟩ => some none
  | ⟨.lineStarted, .line text _⟩ => if line? = none then some (some text) else none
  | ⟨.lineRevealed, .text text⟩ => if line? = some text then some none else none
  | _ => if line? = none then some none else none

/-- The line that is under way after notices that came in a possible order. -/
def lineAfter (ns : List Notice) : Option (Option String) := ns.foldlM Notice.pace none

theorem lineAfter_append {ns : List Notice} {line? : Option String} (h : lineAfter ns = some line?)
    (n : Notice) : lineAfter (ns ++ [n]) = n.pace line? := by
  unfold lineAfter at h ⊢
  rw [List.foldlM_append, h]
  simp

/-! ## Ends -/

/-- Whether a story is under way after a notice, if the notice may come when `running` says whether
one is. -/
def Notice.running (running : Bool) (n : Notice) : Option Bool :=
  match n.topic with
  | .dialogueStarted => some true
  | .dialogueEnded => if running then some false else none
  | _ => some running

/-- Whether a story is under way after notices, if none ended that was not begun before. -/
def runningAfter (ns : List Notice) : Option Bool := ns.foldlM Notice.running false

theorem runningAfter_append {ns : List Notice} {r : Bool} (h : runningAfter ns = some r)
    (n : Notice) : runningAfter (ns ++ [n]) = n.running r := by
  unfold runningAfter at h ⊢
  rw [List.foldlM_append, h]
  simp

/-- How many of the notices are of a topic. -/
def tally (t : Topic) (ns : List Notice) : Nat := ns.countP fun n => n.topic = t

theorem tally_append (t : Topic) (ns : List Notice) (n : Notice) :
    tally t (ns ++ [n]) = tally t ns + if n.topic = t then 1 else 0 := by
  unfold tally
  rw [List.countP_append, List.countP_singleton]
  by_cases h : n.topic = t <;> simp [h]

namespace History
variable {c : Course} {ns : List Notice} {k : Nat} {s : Option Story.Player} {m : Moment}

/-- A story ends at most once after it was begun. -/
theorem ends (h : History c ns k s m) :
    ∃ r, runningAfter ns = some r ∧ (m = .pause ∨ (∃ text, m = .line text) → r = true) := by
  induction h with
  | blank => exact ⟨false, rfl, fun h => by simp at h⟩
  | opening => exact ⟨true, rfl, fun _ => rfl⟩
  | begun _ _ _ ih =>
    obtain ⟨r, hr, -⟩ := ih
    exact ⟨true, by rw [runningAfter_append hr]; rfl, fun _ => rfl⟩
  | read _ _ ih | offered _ _ ih | chosen _ _ _ ih =>
    obtain ⟨r, hr, ht⟩ := ih
    exact ⟨r, by rw [runningAfter_append hr]; rfl, fun _ => ht (Or.inl rfl)⟩
  | @revealed _ _ _ text _ ih =>
    obtain ⟨r, hr, ht⟩ := ih
    exact ⟨r, by rw [runningAfter_append hr]; rfl, fun _ => ht (Or.inr ⟨text, rfl⟩)⟩
  | ended _ ih =>
    obtain ⟨r, hr, ht⟩ := ih
    cases ht (Or.inl rfl)
    exact ⟨false, by rw [runningAfter_append hr]; rfl, fun h => by simp at h⟩
  | told _ ih | dropped _ _ ih =>
    obtain ⟨r, hr, -⟩ := ih
    exact ⟨r, hr, fun h => by simp at h⟩

/-- The owner is told of every end. -/
theorem tells (h : History c ns k s m) :
    k + (if m = .untold then c.bow else 0) = c.bow * tally .dialogueEnded ns := by
  induction h with
  | blank | opening => simp [tally, Notice.plain]
  | ended _ ih =>
    rw [tally_append]
    rw [if_neg nofun, Nat.add_zero] at ih
    simp [Notice.plain, ih, Nat.mul_add]
  | told _ ih =>
    rw [if_pos rfl] at ih
    simpa using ih
  | dropped _ hm ih =>
    rw [if_neg hm] at ih
    simpa using ih
  | begun _ _ _ ih | read _ _ ih | revealed _ ih | offered _ _ ih | chosen _ _ _ ih =>
    rw [tally_append]
    simpa [Notice.plain, Notice.lineStarted, Notice.lineRevealed, Notice.choicesShown,
      Notice.choiceMade] using ih

end History
end VisualNovel
