import VisualNovel.Proofs.SceneStack
import VisualNovel.SceneScript
/-!
# Records of a theatre

Beside the world of a theatre a record can be kept of all that its scenes are told, of the changes
that are asked for and of the copies that are made of scenes (`recorded`). That makes no difference
to what is done (`beside_recorded`).

`Reached` are the worlds of recorded theatres to which anything leads that can be done with scenes:
to ask for changes, to make them, and to update, draw, resize the scenes or hand them events. It is
assumed that scenes ask for changes when they are told something, and do nothing else to the stack
(`Lawful`); when and how often they ask is up to them.
-/
namespace VisualNovel

/-- A scene is told something. -/
structure Telling (κ : Type) where
  cue : SceneCue
  scene : κ
  deriving DecidableEq, Repr

/-- What has happened to scenes. -/
structure SceneRecord (κ : Type) where
  told : List (Telling κ) := []
  asked : List (SceneChange κ) := []
  /-- The fresh copies that replaced a scene. -/
  copies : List κ := []
  deriving DecidableEq, Repr

namespace Theatre
variable {σ κ φ : Type}

/-- From one world to the next nothing happens to the scenes but that changes are asked for, and the
world stays calm. -/
def Asks (t : Theatre σ κ φ) (calm : σ → Prop) (s s' : σ) : Prop :=
  calm s' ∧ ∃ cs, t.scenes s' = { t.scenes s with pending := (t.scenes s).pending ++ cs }

/-- Whatever a scene is told in a calm world, it only asks for changes. -/
structure Lawful (t : Theatre σ κ φ) (calm : σ → Prop) : Prop where
  scenes_withScenes : ∀ c s, t.scenes (t.withScenes c s) = c
  withScenes : ∀ c s, calm s → calm (t.withScenes c s)
  enter : ∀ k s, calm s → t.Asks calm s (t.enter k s).1
  exit : ∀ k s, calm s → t.Asks calm s (t.exit k s)
  destroy : ∀ k s, calm s → t.Asks calm s (t.destroy k s)
  recreate : ∀ k s, calm s → t.Asks calm s (t.recreate k s).1
  publish : ∀ topic k s, calm s → t.Asks calm s (t.publish topic k s)

/-- The changes that were asked for from one world to another. -/
def askedFor (t : Theatre σ κ φ) (s s' : σ) : List (SceneChange κ) :=
  (t.scenes s').pending.drop (t.scenes s).pending.length

/-- Writes down what was said while a world became another, and what was asked for meanwhile. -/
def noted (t : Theatre σ κ φ) (said : List (Telling κ)) (w : σ × SceneRecord κ) (s' : σ) :
    σ × SceneRecord κ :=
  (s', { w.2 with told := w.2.told ++ said, asked := w.2.asked ++ t.askedFor w.1 s' })

/-- Tells a scene something, and writes it down. -/
def telling (t : Theatre σ κ φ) (cue : SceneCue) (f : κ → σ → Attempt σ φ) (k : κ)
    (w : σ × SceneRecord κ) : Attempt (σ × SceneRecord κ) φ :=
  (t.noted [⟨cue, k⟩] w (f k w.1).1, (f k w.1).2)

/-- The same theatre, where all that happens to the scenes is written down. -/
def recorded (t : Theatre σ κ φ) : Theatre (σ × SceneRecord κ) κ φ where
  scenes w := t.scenes w.1
  withScenes c w := (t.withScenes c w.1, w.2)
  enter := t.telling .enter t.enter
  exit k w := t.noted [⟨.exit, k⟩] w (t.exit k w.1)
  destroy k w := t.noted [⟨.destroy, k⟩] w (t.destroy k w.1)
  recreate k w :=
    let (s, copy) := t.recreate k w.1
    let (s, r) := t.noted [] w s
    ((s, { r with copies := r.copies ++ [copy] }), copy)
  publish topic k w := t.noted [] w (t.publish topic k w.1)
  isTransparent k w := t.isTransparent k w.1
  blocksUpdate k w := t.blocksUpdate k w.1

/-- To write down what happens to the scenes makes no difference to it. -/
theorem beside_recorded (t : Theatre σ κ φ) : Beside t t.recorded where
  scenes _ := rfl
  withScenes _ _ := rfl
  enter _ _ := rfl
  exit _ _ := rfl
  destroy _ _ := rfl
  recreate _ _ := rfl
  publish _ _ _ := rfl
  isTransparent _ _ := rfl
  blocksUpdate _ _ := rfl

section
variable [DecidableEq κ] (t : Theatre σ κ φ) (w : σ × SceneRecord κ)

theorem recorded_settleUpTo (fuel : Nat) :
    alone (t.recorded.settleUpTo fuel w) = t.settleUpTo fuel w.1 :=
  (beside_recorded t).settleUpTo fuel w

theorem recorded_update (step : κ → σ → Attempt σ φ) :
    alone (t.recorded.update (t.telling .update step) w) = t.update step w.1 :=
  (beside_recorded t).update (fun _ _ => rfl) w

omit [DecidableEq κ]

theorem recorded_render (draw : κ → σ → Attempt σ φ) :
    alone (t.recorded.render (t.telling .render draw) w) = t.render draw w.1 :=
  (beside_recorded t).render (fun _ _ => rfl) w

theorem recorded_onTop (cue : SceneCue) (handle : κ → σ → σ) :
    (t.recorded.onTop (fun k w => t.noted [⟨cue, k⟩] w (handle k w.1)) w).1 =
      t.onTop handle w.1 :=
  (beside_recorded t).onTop (fun _ _ => rfl) w

theorem recorded_onEach (cue : SceneCue) (handle : κ → σ → σ) :
    (t.recorded.onEach (fun k w => t.noted [⟨cue, k⟩] w (handle k w.1)) w).1 =
      t.onEach handle w.1 :=
  (beside_recorded t).onEach (fun _ _ => rfl) w

end

/-- The worlds of a theatre without scenes to begin with, and the records of what led there. -/
inductive Reached [DecidableEq κ] (t : Theatre σ κ φ) (calm : σ → Prop) :
    σ × SceneRecord κ → Prop
  | opening {s : σ} (hcalm : calm s) (hscenes : t.scenes s = {}) : Reached t calm (s, {})
  /-- Somebody else asks for changes, or does something that does not concern the scenes. -/
  | outside {w : σ × SceneRecord κ} {s' : σ} (hw : Reached t calm w) (hasks : t.Asks calm w.1 s') :
      Reached t calm (t.noted [] w s')
  /-- Any number of the changes that were asked for are made. -/
  | settle {w : σ × SceneRecord κ} (fuel : Nat) (hw : Reached t calm w) :
      Reached t calm (t.recorded.settleUpTo fuel w).1
  | update {w : σ × SceneRecord κ} {step : κ → σ → Attempt σ φ} (hw : Reached t calm w)
      (hstep : ∀ k s, calm s → t.Asks calm s (step k s).1) :
      Reached t calm (t.recorded.update (t.telling .update step) w).1
  | render {w : σ × SceneRecord κ} {draw : κ → σ → Attempt σ φ} (hw : Reached t calm w)
      (hdraw : ∀ k s, calm s → t.Asks calm s (draw k s).1) :
      Reached t calm (t.recorded.render (t.telling .render draw) w).1
  | handle {w : σ × SceneRecord κ} {handle : κ → σ → σ} (hw : Reached t calm w)
      (hhandle : ∀ k s, calm s → t.Asks calm s (handle k s)) :
      Reached t calm (t.recorded.onTop (fun k w => t.noted [⟨.handle, k⟩] w (handle k w.1)) w)
  | resize {w : σ × SceneRecord κ} {resize : κ → σ → σ} (hw : Reached t calm w)
      (hresize : ∀ k s, calm s → t.Asks calm s (resize k s)) :
      Reached t calm (t.recorded.onEach (fun k w => t.noted [⟨.resize, k⟩] w (resize k w.1)) w)

/-! ## Asking -/

variable {t : Theatre σ κ φ} {calm : σ → Prop} {s s' s'' : σ}

theorem Asks.refl (h : calm s) : t.Asks calm s s := ⟨h, [], by simp⟩

theorem Asks.trans (h : t.Asks calm s s') (h' : t.Asks calm s' s'') : t.Asks calm s s'' := by
  obtain ⟨-, cs, hcs⟩ := h
  obtain ⟨hcalm, cs', hcs'⟩ := h'
  refine ⟨hcalm, cs ++ cs', ?_⟩
  rw [hcs', hcs, List.append_assoc]

theorem Asks.stack (h : t.Asks calm s s') : (t.scenes s').stack = (t.scenes s).stack := by
  obtain ⟨-, cs, hcs⟩ := h
  rw [hcs]

theorem Asks.active (h : t.Asks calm s s') : (t.scenes s').active = (t.scenes s).active := by
  obtain ⟨-, cs, hcs⟩ := h
  rw [hcs]

/-- What was asked for waits behind what was asked for before. -/
theorem Asks.pending (h : t.Asks calm s s') :
    (t.scenes s').pending = (t.scenes s).pending ++ t.askedFor s s' := by
  obtain ⟨-, cs, hcs⟩ := h
  unfold askedFor
  rw [hcs, List.drop_left]

end Theatre
end VisualNovel
