import Mathlib.Data.List.Chain
import VisualNovel.Proofs.SceneStack.Lives
import VisualNovel.Proofs.SceneStack.Playhouses
/-!
# Stays on the stack

What the worlds that can be reached have in common (`stack_is_as_asked`): the stack is what the
changes make of a plain list, one after the other in the order in which they were asked for; the
scene on top is the active one; and every stay on the stack ends with the scene being removed for
good, once, after which it is told nothing more.

A scene that is told in turn that it has come to the top and that it goes, and at last that it is
removed, is told so in pairs (`Paired`). That is what a scene is told, except where all scenes are
removed at once: those under the top are told once more that they go, though they had gone when they
were covered (`paired_iff_not_swept`).
-/
namespace VisualNovel

namespace Theatre
variable {σ κ φ : Type} [DecidableEq κ] {t : Theatre σ κ φ} {calm : σ → Prop}

end Theatre

namespace Playhouse

end Playhouse
/-! ## Coming and going in pairs -/

/-- Whether a cue that tells a scene that it comes or goes may be followed by another. -/
def SceneCue.precedes : SceneCue → SceneCue → Bool
  | .enter, .exit | .exit, .enter | .exit, .destroy => true
  | _, _ => false

/-- A scene is told that it comes, then that it goes, then that it comes again or is removed. -/
structure Paired (cues : List SceneCue) : Prop where
  first : ∀ cue ∈ cues.head?, cue = .enter
  next : cues.IsChain fun cue cue' => cue.precedes cue' = true

theorem Paired.nil : Paired [] := ⟨by simp, List.isChain_nil⟩

theorem Paired.singleton : Paired [.enter] := ⟨by simp, List.isChain_singleton _⟩

/-- What may follow the last cue keeps the pairs. -/
theorem Paired.snoc {cues : List SceneCue} {last cue : SceneCue} (h : Paired cues)
    (hlast : cues.getLast? = some last) (hnext : last.precedes cue = true) :
    Paired (cues ++ [cue]) where
  first := by
    cases cues with
    | nil => cases hlast
    | cons c cs => exact h.first
  next := by
    refine List.isChain_append.2 ⟨h.next, List.isChain_singleton _, ?_⟩
    intro x hx y hy
    rw [hlast] at hx
    cases hx
    cases hy
    exact hnext

/-- Nobody goes twice in pairs. -/
theorem not_paired_of_exit_exit (front back : List SceneCue) :
    ¬Paired (front ++ .exit :: .exit :: back) := by
  intro h
  have hback := (List.isChain_append.1 h.next).2.1
  have hexit := (List.isChain_cons_cons.1 hback).1
  cases hexit

/-- What a scene was told of its coming and going. -/
def passages [DecidableEq κ] (told : List (Telling κ)) (k : κ) : List SceneCue :=
  (cuesOf told k).filter (·.comesOrGoes)

/-- What a scene was told of its coming and going, by where it stands. -/
def SceneStanding.Passages : SceneStanding → List SceneCue → Prop
  | .unborn, cues => cues = []
  | .onTop, cues => Paired cues ∧ cues.getLast? = some .enter
  | .covered, cues => Paired cues ∧ cues.getLast? = some .exit
  | .gone, cues => Paired cues
  | .swept, cues => ∃ front, cues = front ++ [.exit, .exit, .destroy] ∧ Paired (front ++ [.exit])

theorem SceneLife.passages {st : SceneStanding} {l : List SceneCue} (h : SceneLife st l) :
    st.Passages (l.filter (·.comesOrGoes)) := by
  induction h with
  | unborn => rfl
  | arrives _ ih =>
    rw [List.filter_append, show _ = [] from ih]
    exact ⟨.singleton, rfl⟩
  | rises _ ih =>
    rw [List.filter_append]
    exact ⟨ih.1.snoc ih.2 rfl, List.getLast?_concat⟩
  | covered _ ih =>
    rw [List.filter_append]
    exact ⟨ih.1.snoc ih.2 rfl, List.getLast?_concat⟩
  | @leaves l _ ih =>
    have hexit : Paired (l.filter (·.comesOrGoes) ++ [.exit]) := ih.1.snoc ih.2 rfl
    have hdestroy : Paired (l.filter (·.comesOrGoes) ++ [.exit] ++ [.destroy]) :=
      hexit.snoc List.getLast?_concat rfl
    rw [List.append_assoc] at hdestroy
    rw [List.filter_append]
    exact hdestroy
  | @swept l _ ih =>
    obtain ⟨hpaired, hlast⟩ := ih
    obtain ⟨front, hfront⟩ := List.getLast?_eq_some_iff.1 hlast
    rw [hfront] at hpaired
    refine ⟨front, ?_, hpaired⟩
    rw [List.filter_append, hfront, List.append_assoc]
    rfl
  | @told st l cue _ _ hcue ih =>
    rw [List.filter_append, List.filter_singleton, hcue, cond_false, List.append_nil]
    exact ih

namespace Theatre
variable {σ κ φ : Type} [DecidableEq κ] {t : Theatre σ κ φ} {calm : σ → Prop}

/-- **Scenes come and go in pairs, unless they are swept.** Whatever is done with scenes that only
ask for changes, a scene that is put on the stack once at most is told in pairs that it comes and
goes, unless it was removed together with others while one of them was on top. Then it is told twice
in a row that it goes, and that it is removed. -/
theorem paired_iff_not_swept (ht : t.Lawful calm) {w : σ × SceneRecord κ} (hw : t.Reached calm w)
    {k : κ} (hone : (SceneChange.handed w.2.asked w.2.copies).count k ≤ 1) :
    ∃ made, w.2.asked = made ++ (t.scenes w.1).pending ∧
      (Paired (passages w.2.told k) ↔ k ∉ SceneChange.swept made ([], w.2.copies)) ∧
      (k ∈ SceneChange.swept made ([], w.2.copies) →
        ∃ front, passages w.2.told k = front ++ [.exit, .exit, .destroy] ∧
          Paired (front ++ [.exit])) := by
  obtain ⟨a, hshows, hplayed⟩ := hw.plays ht
  rw [hshows.copies, hshows.asked] at hone
  rw [hshows.told, hshows.copies, hshows.asked]
  have hle := SceneChange.count_handed_le a.made (t.scenes w.1).pending a.copies k
  have hhanded : a.handed.count k ≤ 1 := Nat.le_trans hle hone
  have hswept := hplayed.standing_swept_iff hhanded
  have hpassages := (hplayed.life hhanded).passages
  refine ⟨a.made, rfl, ⟨?_, ?_⟩, ?_⟩
  · intro hpaired hk
    rw [hswept.2 hk] at hpassages
    obtain ⟨front, hfront, -⟩ := hpassages
    unfold VisualNovel.passages at hpaired
    rw [hfront] at hpaired
    exact not_paired_of_exit_exit front [.destroy] hpaired
  · intro hk
    cases hstanding : a.standing k with
    | unborn =>
      rw [hstanding] at hpassages
      unfold VisualNovel.passages
      rw [show _ = [] from hpassages]
      exact .nil
    | onTop | covered =>
      rw [hstanding] at hpassages
      exact hpassages.1
    | gone =>
      rw [hstanding] at hpassages
      exact hpassages
    | swept => exact absurd (hswept.1 hstanding) hk
  · intro hk
    rw [hswept.2 hk] at hpassages
    exact hpassages

end Theatre

namespace Playhouse

/-- Three scenes lie on one another, and then all are removed. -/
def clearedHouse : Playhouse × SceneRecord SceneTag :=
  (pass [.ask .clear]
    (pass [.ask (.push "Hall"), .ask (.push "Door")] (cellarHouse, {})).1).1

/-- The hall, which lies under the others, is told twice that it goes. -/
theorem clearedHouse_hall_not_paired :
    (theatre (carryOut 1)).Lawful AsksOnly ∧ (theatre (carryOut 1)).Reached AsksOnly clearedHouse ∧
      (SceneChange.handed clearedHouse.2.asked clearedHouse.2.copies).count ⟨"Hall", 1⟩ ≤ 1 ∧
      ¬Paired (passages clearedHouse.2.told ⟨"Hall", 1⟩) := by
  have hlawful : (theatre (carryOut 1)).Lawful AsksOnly := theatre_lawful 0
  have hreached : (theatre (carryOut 1)).Reached AsksOnly clearedHouse :=
    reached_pass (reached_pass (.opening (by decide +kernel) rfl) (by decide)) (by decide)
  have hone : (SceneChange.handed clearedHouse.2.asked clearedHouse.2.copies).count
      ⟨"Hall", 1⟩ ≤ 1 := by decide +kernel
  have hpending : ((theatre (carryOut 1)).scenes clearedHouse.1).pending = [] := by decide +kernel
  have hswept : ⟨"Hall", 1⟩ ∈
      SceneChange.swept clearedHouse.2.asked ([], clearedHouse.2.copies) := by decide +kernel
  obtain ⟨made, hasked, hpaired, -⟩ := Theatre.paired_iff_not_swept hlawful hreached hone
  rw [hpending, List.append_nil] at hasked
  rw [hasked] at hswept
  exact ⟨hlawful, hreached, hone, fun h => hpaired.1 h hswept⟩

end Playhouse
end VisualNovel
