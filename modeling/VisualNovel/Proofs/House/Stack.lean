import VisualNovel.Proofs.House.Setup
import VisualNovel.Proofs.SceneStack
/-!
# One screen at a time

A house in which one screen was asked for plays one screen at a time (`Plays`): the last one waits to
be put on the stack or is the only one there, and all before it are gone. An update puts the screen
there, or a fresh copy in its place when its story has ended, and then lets time pass for it
(`update_spec`); to clear the stack leaves nothing behind (`clear_update_spec`). So the screens come to
the top and are removed for good one after the other (`lives`).
-/
namespace VisualNovel

namespace House
variable {τ : Type} {X : Regime τ} {e : Edition τ} {n : Nat} {q : List (SceneChange SceneId)}
  {s s' : Screen τ} {h h' : House τ} {up : Bool}

/-- What waits for an update unless the screen is on the stack. -/
def awaited (up : Bool) (n : Nat) : List (SceneChange SceneId) :=
  if up then [] else [.push (.screen n)]

/-- A house that plays one screen at a time; `up` says whether it is on the stack. -/
structure Plays (X : Regime τ) (e : Edition τ) (q : List (SceneChange SceneId)) (up : Bool) (n : Nat)
    (s : Screen τ) (h : House τ) : Prop where
  onscreen : Onscreen X e q false n s h
  stack : h.scenes.stack = if up then [.screen n] else []
  count : h.screens.length = n + 1
  gone : ∀ m s', m ≠ n → h.screen? m = some s' → Gone s'
  dialogue : h.services.get? .dialogue = if s.entered then some n else none
  waits : up = false → s.entered = false

/-- What the screen does makes no difference to the house around it. -/
theorem Plays.proceeds (hp : Plays X e q up n s h) {ns : List Notice}
    (hs : Proceeds X e q false n s h s' h' ns) : Plays X e q up n s' h' where
  onscreen := hs.onscreen
  stack := hs.around.stack.trans hp.stack
  count := hs.around.count.trans hp.count
  gone m s' hm hs' := hp.gone m s' hm ((hs.around.others m hm).symm.trans hs')
  dialogue := by rw [hs.around.services, hs.entered]; exact hp.dialogue
  waits hup := hs.entered.trans (hp.waits hup)

variable [Clock τ]

/-! ## A fresh screen -/

variable {step : τ → Prop}

/-- The house in which other changes are left to be made. -/
def leaving (rest : List (SceneChange SceneId)) (h : House τ) : House τ :=
  { h with scenes := { h.scenes with pending := rest } }

/-- A house whose screens are all gone. -/
structure Cleared (count : Nat) (h : House τ) : Prop where
  ready : Ready false [] [] h
  stack : h.scenes.stack = []
  count : h.screens.length = count
  gone : ∀ m s, h.screen? m = some s → Gone s
  dialogue : h.services.get? .dialogue = none

/-- The screen on the stack is removed for good, and then none is left. -/
theorem dismiss_spec (hp : Plays X e q true n s h) (rest : List (SceneChange SceneId)) :
    ∃ h', theatre.dismiss (.screen n) [] (leaving rest h) = h' ∧ Cleared (n + 1) h' ∧
      h'.scenes.pending = rest ∧ (∃ s', h'.screen? n = some s' ∧ s'.edition = e) ∧
      h'.services.get? .sounds = h.services.get? .sounds ∧ h'.running = h.running := by
  let scenes : SceneStack SceneId :=
    ⟨[], rest, h.scenes.active.filter (· ≠ .screen n)⟩
  obtain ⟨x, b, hdestroy, hgone, hr⟩ := destroyScreen_spec (h := { h with scenes }) hp.onscreen
    hp.onscreen.screen (hp.onscreen.ready.withScenes _)
  have hscreen := screen?_modifyScreen_self hp.onscreen.screen fun s => { s with dialogue := x }
  have hbeside := beside_modifyScreen n (fun s => { s with dialogue := x }) h
  refine ⟨_, hdestroy, ⟨⟨hr.tuned, hr.delivering, hr.idle, hr.waits⟩, rfl,
    hbeside.count.trans hp.count, fun m u hu => ?_, ?_⟩, rfl,
    ⟨_, hscreen, hp.onscreen.edition⟩, ?_, rfl⟩
  · by_cases hm : m = n
    · subst hm
      cases hscreen.symm.trans hu
      exact hgone
    · exact hp.gone m u hm ((hbeside.others m hm).symm.trans hu)
  · show (withdrawn n s.entered h.services).get? .dialogue = none
    have hdialogue := hp.dialogue
    unfold withdrawn
    cases hentered : s.entered with
    | false =>
      rw [hentered] at hdialogue
      exact hdialogue
    | true =>
      rw [hentered] at hdialogue
      simp only [hdialogue, if_true, Bool.true_and, decide_true]
      rw [Services.get?_remove, if_pos rfl]
  · show (withdrawn n s.entered h.services).get? .sounds = _
    unfold withdrawn
    split
    · rw [Services.get?_remove, if_neg (by decide)]
    · rfl

/-- The stack is cleared. -/
theorem clear_spec (hp : Plays X e q true n s h) (rest : List (SceneChange SceneId))
    (ms : List (SceneEvent SceneId)) :
    ∃ h', theatre.chronicled.apply .clear (leaving rest h, ms) =
        ((h', ms ++ [.destroyed (.screen n)]), none) ∧
      Cleared (n + 1) h' ∧ h'.scenes.pending = rest := by
  obtain ⟨h', hdismiss, hcleared, hpending, -⟩ := dismiss_spec hp rest
  refine ⟨h', ?_, hcleared, hpending⟩
  have hstack : (theatre.scenes (leaving rest h)).stack = [.screen n] := hp.stack
  rw [Theatre.chronicled_clear _ _ hstack (by rw [hdismiss]; exact hcleared.stack), hdismiss]

/-! ## The lives of screens -/

/-- The first `n` screens came to the top and were removed for good, one after the other; `up` says
whether the next one has come to the top. -/
def lives (up : Bool) (n : Nat) : List (SceneEvent SceneId) :=
  (List.range n).flatMap (fun m => [.entered (.screen m), .destroyed (.screen m)]) ++
    if up then [.entered (.screen n)] else []

/-- Nothing broke off so far: the screen on the stack was entered, and the first one set up the
jukebox. -/
structure Tidy (up : Bool) (n : Nat) (s : Screen τ) (h : House τ) : Prop where
  entered : s.entered = up
  sounds : h.services.get? .sounds = if up then some 0 else none
  first : up = false → n = 0

/-- What befalls the scenes of a house in an update. -/
def chronicle (dt : τ) (h : House τ) : List (SceneEvent SceneId) :=
  theatre.chronicle (updateScene dt) h

/-- What comes of an update is told by what comes of the changes that are made in it. -/
theorem settled (h : House τ) {h' : House τ} {ms : List (SceneEvent SceneId)}
    {err : Option HouseError} (hsettle : theatre.chronicled.settle (h, []) = ((h', ms), err))
    (dt : τ) : theatre.settle h = (h', err) ∧ h.chronicle dt = ms := by
  refine ⟨?_, Theatre.chronicle_of_settle _ hsettle _⟩
  rw [← Theatre.alone_settle theatre (h, []), hsettle]
  rfl

end House
end VisualNovel
