import VisualNovel.SceneStack
/-!
# Changes of the stack, one after the other

What was asked for is made change by change (`settle_one`, `settle_two`), up to the first that breaks
off (`settle_fails`).

What is kept beside a world makes no difference to what is done with its scenes (`Beside`). So it
can be written down when scenes come to the top and are removed for good (`chronicled`), and what a
theatre does to its scenes in an update is told by `chronicle`.
-/
namespace VisualNovel

/-- What befalls a scene. -/
inductive SceneEvent (κ : Type) where
  /-- It has come to the top. -/
  | entered (scene : κ)
  /-- It is removed for good. -/
  | destroyed (scene : κ)
  deriving DecidableEq, Repr

namespace Theatre
variable {σ κ φ : Type} [DecidableEq κ] {t : Theatre σ κ φ} {s : σ}

theorem settleUpTo_nil (h : (t.scenes s).pending = []) (fuel : Nat) :
    t.settleUpTo fuel s = (s, none) := by
  cases fuel with
  | zero => rfl
  | succ fuel =>
    unfold settleUpTo
    rw [h]

theorem settleUpTo_cons {c : SceneChange κ} {rest : List (SceneChange κ)}
    (h : (t.scenes s).pending = c :: rest) {fuel : Nat} (hfuel : 0 < fuel) :
    t.settleUpTo fuel s =
      (t.apply c (t.modify (fun c => { c with pending := rest }) s)).andThen
        (t.settleUpTo (fuel - 1)) := by
  obtain ⟨fuel, rfl⟩ := Nat.exists_eq_succ_of_ne_zero (Nat.pos_iff_ne_zero.1 hfuel)
  rw [settleUpTo, h]
  rfl

theorem dismissUpTo_nil (h : (t.scenes s).stack = []) (fuel : Nat) :
    t.dismissUpTo fuel s = s := by
  cases fuel with
  | zero => rfl
  | succ fuel =>
    unfold dismissUpTo
    rw [h]

theorem dismissUpTo_cons {k : κ} {below : List κ} (h : (t.scenes s).stack = k :: below)
    {fuel : Nat} (hfuel : 0 < fuel) :
    t.dismissUpTo fuel s = t.dismissUpTo (fuel - 1) (t.dismiss k below s) := by
  obtain ⟨fuel, rfl⟩ := Nat.exists_eq_succ_of_ne_zero (Nat.pos_iff_ne_zero.1 hfuel)
  rw [dismissUpTo, h]
  rfl

section
variable {c c' : SceneChange κ} {s' s'' : σ} {fuel : Nat}

end

/-! ## What scenes are told -/

section
variable {handle : κ → σ → σ}
omit [DecidableEq κ]

end

/-! ## What is kept beside a world -/

/-- Does something in a world beside which something else is kept. -/
def beside {ω : Type} (f : σ → Attempt σ φ) (s : σ × ω) : Attempt (σ × ω) φ :=
  (((f s.1).1, s.2), (f s.1).2)

/-- Forgets what was kept beside a world. -/
def alone {ω : Type} (r : Attempt (σ × ω) φ) : Attempt σ φ := (r.1.1, r.2)

/-- What was kept beside a world. -/
def kept {ω : Type} (r : Attempt (σ × ω) φ) : ω := r.1.2

/-- A theatre whose world has something else kept beside it, and that does with its scenes what the
other one does. -/
structure Beside {ω : Type} (t : Theatre σ κ φ) (t' : Theatre (σ × ω) κ φ) : Prop where
  scenes : ∀ s, t'.scenes s = t.scenes s.1
  withScenes : ∀ c s, (t'.withScenes c s).1 = t.withScenes c s.1
  enter : ∀ k s, alone (t'.enter k s) = t.enter k s.1
  exit : ∀ k s, (t'.exit k s).1 = t.exit k s.1
  destroy : ∀ k s, (t'.destroy k s).1 = t.destroy k s.1
  recreate : ∀ k s, ((t'.recreate k s).1.1, (t'.recreate k s).2) = t.recreate k s.1
  publish : ∀ topic k s, (t'.publish topic k s).1 = t.publish topic k s.1
  isTransparent : ∀ k s, t'.isTransparent k s = t.isTransparent k s.1
  blocksUpdate : ∀ k s, t'.blocksUpdate k s = t.blocksUpdate k s.1

section
variable {ω : Type} {r : Attempt (σ × ω) φ}

omit [DecidableEq κ] in
theorem alone_fst (r : Attempt (σ × ω) φ) : (alone r).1 = r.1.1 := rfl

theorem alone_andThen {next : σ × ω → Attempt (σ × ω) φ} {next' : σ → Attempt σ φ}
    (h : ∀ s, alone (next s) = next' s.1) : alone (r.andThen next) = (alone r).andThen next' := by
  obtain ⟨s, e⟩ := r
  cases e with
  | none => exact h s
  | some e => rfl

omit [DecidableEq κ] in
theorem alone_inTurn {step : κ → σ → Attempt σ φ} {step' : κ → σ × ω → Attempt (σ × ω) φ}
    (h : ∀ k s, alone (step' k s) = step k s.1) (ks : List κ) (s : σ × ω) :
    alone (Attempt.inTurn step' ks s) = Attempt.inTurn step ks s.1 := by
  induction ks generalizing s with
  | nil => rfl
  | cons k ks ih =>
    have hfirst := alone_andThen (r := step' k s) ih
    rw [h] at hfirst
    exact hfirst

end

/-! What is kept beside a world makes no difference to what is done with the scenes. -/

namespace Beside
variable {ω : Type} {t' : Theatre (σ × ω) κ φ}

omit [DecidableEq κ] in
theorem modify (h : Beside t t') (f : SceneStack κ → SceneStack κ) (s : σ × ω) :
    (t'.modify f s).1 = t.modify f s.1 := by
  unfold Theatre.modify
  rw [h.withScenes, h.scenes]

theorem activate (h : Beside t t') (k : κ) (s : σ × ω) :
    alone (t'.activate k s) = t.activate k s.1 := by
  unfold Theatre.activate
  rw [h.enter, h.modify]

theorem deactivate (h : Beside t t') (k : κ) (s : σ × ω) :
    (t'.deactivate k s).1 = t.deactivate k s.1 := by
  unfold Theatre.deactivate
  rw [h.exit, h.modify]

theorem dismiss (h : Beside t t') (k : κ) (below : List κ) (s : σ × ω) :
    (t'.dismiss k below s).1 = t.dismiss k below s.1 := by
  unfold Theatre.dismiss
  rw [h.destroy, h.deactivate, h.modify]

theorem place (h : Beside t t') (topic : Topic) (k : κ) (s : σ × ω) :
    alone (t'.place topic k s) = t.place topic k s.1 := by
  have hactivate := h.activate k (t'.modify (fun c => { c with stack := k :: c.stack }) s)
  rw [h.modify] at hactivate
  unfold Theatre.place
  rw [← hactivate]
  generalize t'.activate k _ = r
  obtain ⟨s', e⟩ := r
  cases e with
  | none => exact Prod.ext (h.publish topic k s') rfl
  | some e => rfl

theorem dismissUpTo (h : Beside t t') (fuel : Nat) (s : σ × ω) :
    (t'.dismissUpTo fuel s).1 = t.dismissUpTo fuel s.1 := by
  induction fuel generalizing s with
  | zero => rfl
  | succ fuel ih =>
    cases hstack : (t.scenes s.1).stack with
    | nil =>
      rw [dismissUpTo_nil hstack, dismissUpTo_nil (by rw [h.scenes]; exact hstack)]
    | cons k below =>
      rw [dismissUpTo_cons hstack fuel.succ_pos,
        dismissUpTo_cons (by rw [h.scenes]; exact hstack) fuel.succ_pos, ← h.dismiss]
      exact ih _

theorem uncover (h : Beside t t') (s : σ × ω) : alone (t'.uncover s) = t.uncover s.1 := by
  unfold Theatre.uncover
  rw [h.scenes]
  cases (t.scenes s.1).stack with
  | nil => rfl
  | cons k below => exact h.activate k s

theorem apply (h : Beside t t') (c : SceneChange κ) (s : σ × ω) :
    alone (t'.apply c s) = t.apply c s.1 := by
  unfold Theatre.apply
  rw [h.scenes]
  cases c with
  | push k =>
    cases (t.scenes s.1).stack with
    | nil => exact h.place _ k s
    | cons top below =>
      simp only [← h.deactivate]
      exact h.place _ k _
  | switch k =>
    cases (t.scenes s.1).stack with
    | nil => exact h.place _ k s
    | cons top below =>
      simp only [← h.dismiss]
      exact h.place _ k _
  | pop =>
    cases (t.scenes s.1).stack with
    | nil => rfl
    | cons top below =>
      simp only [← h.dismiss, ← h.publish]
      exact h.uncover _
  | reload =>
    cases (t.scenes s.1).stack with
    | nil => rfl
    | cons top below =>
      simp only [← h.dismiss, ← h.recreate]
      exact h.place _ _ _
  | clear => exact congrArg (·, none) (h.dismissUpTo _ s)

theorem settleUpTo (h : Beside t t') (fuel : Nat) (s : σ × ω) :
    alone (t'.settleUpTo fuel s) = t.settleUpTo fuel s.1 := by
  induction fuel generalizing s with
  | zero => rfl
  | succ fuel ih =>
    unfold Theatre.settleUpTo
    rw [h.scenes]
    cases (t.scenes s.1).pending with
    | nil => rfl
    | cons c rest =>
      dsimp only
      rw [alone_andThen ih, h.apply, h.modify]

theorem settle (h : Beside t t') (s : σ × ω) : alone (t'.settle s) = t.settle s.1 := by
  unfold Theatre.settle
  rw [h.settleUpTo, h.scenes]

/-- An update with something kept beside does what the update does. -/
theorem update (h : Beside t t') {step : κ → σ → Attempt σ φ}
    {step' : κ → σ × ω → Attempt (σ × ω) φ} (hstep : ∀ k s, alone (step' k s) = step k s.1)
    (s : σ × ω) : alone (t'.update step' s) = t.update step s.1 := by
  unfold Theatre.update
  rw [← h.settle]
  refine alone_andThen fun s => ?_
  rw [alone_inTurn hstep, h.scenes]
  simp only [h.blocksUpdate]

omit [DecidableEq κ] in
theorem render (h : Beside t t') {draw : κ → σ → Attempt σ φ}
    {draw' : κ → σ × ω → Attempt (σ × ω) φ} (hdraw : ∀ k s, alone (draw' k s) = draw k s.1)
    (s : σ × ω) : alone (t'.render draw' s) = t.render draw s.1 := by
  unfold Theatre.render
  rw [alone_inTurn hdraw, h.scenes]
  simp only [h.isTransparent]

section
variable {handle : κ → σ → σ} {handle' : κ → σ × ω → σ × ω}
omit [DecidableEq κ]

theorem onTop (h : Beside t t') (hhandle : ∀ k s, (handle' k s).1 = handle k s.1) (s : σ × ω) :
    (t'.onTop handle' s).1 = t.onTop handle s.1 := by
  unfold Theatre.onTop
  rw [h.scenes]
  cases (t.scenes s.1).current? with
  | none => rfl
  | some k => exact hhandle k s

theorem onEachFrom (h : Beside t t') (hhandle : ∀ k s, (handle' k s).1 = handle k s.1)
    (fuel height : Nat) (s : σ × ω) :
    (t'.onEachFrom handle' fuel height s).1 = t.onEachFrom handle fuel height s.1 := by
  induction fuel generalizing height s with
  | zero => rfl
  | succ fuel ih =>
    unfold Theatre.onEachFrom
    rw [h.scenes]
    cases (t.scenes s.1).bottomUp[height]? with
    | none => rfl
    | some k =>
      simp only [← hhandle]
      exact ih _ _

theorem onEach (h : Beside t t') (hhandle : ∀ k s, (handle' k s).1 = handle k s.1) (s : σ × ω) :
    (t'.onEach handle' s).1 = t.onEach handle s.1 := by
  unfold Theatre.onEach
  rw [h.onEachFrom hhandle, h.scenes]

end
end Beside

/-! ## When scenes come and go -/

/-- The same theatre, where it is written down that a scene comes to the top and that it is removed
for good. -/
def chronicled (t : Theatre σ κ φ) : Theatre (σ × List (SceneEvent κ)) κ φ where
  scenes s := t.scenes s.1
  withScenes c s := (t.withScenes c s.1, s.2)
  enter k s := (((t.enter k s.1).1, s.2 ++ [.entered k]), (t.enter k s.1).2)
  exit k s := (t.exit k s.1, s.2)
  destroy k s := (t.destroy k s.1, s.2 ++ [.destroyed k])
  recreate k s := (((t.recreate k s.1).1, s.2), (t.recreate k s.1).2)
  publish topic k s := (t.publish topic k s.1, s.2)
  isTransparent k s := t.isTransparent k s.1
  blocksUpdate k s := t.blocksUpdate k s.1

/-- What befalls the scenes in an update. -/
def chronicle (t : Theatre σ κ φ) (step : κ → σ → Attempt σ φ) (s : σ) : List (SceneEvent κ) :=
  kept (t.chronicled.update (fun k => beside (step k)) (s, []))

omit [DecidableEq κ] in
theorem beside_chronicled (t : Theatre σ κ φ) : Beside t t.chronicled where
  scenes _ := rfl
  withScenes _ _ := rfl
  enter _ _ := rfl
  exit _ _ := rfl
  destroy _ _ := rfl
  recreate _ _ := rfl
  publish _ _ _ := rfl
  isTransparent _ _ := rfl
  blocksUpdate _ _ := rfl

variable (t) (s : σ × List (SceneEvent κ))

theorem chronicled_dismiss (k : κ) (below : List κ) : t.chronicled.dismiss k below s =
    (t.dismiss k below s.1, s.2 ++ [.destroyed k]) := rfl

theorem alone_settle : alone (t.chronicled.settle s) = t.settle s.1 :=
  (beside_chronicled t).settle s

/-- An update in which it is written down what befalls the scenes does what the update does. -/
theorem chronicled_update (step : κ → σ → Attempt σ φ) :
    alone (t.chronicled.update (fun k => beside (step k)) s) = t.update step s.1 :=
  (beside_chronicled t).update (fun _ _ => rfl) s

/-- What befalls the scenes in an update befalls them before time passes. -/
theorem chronicle_of_settle {s s' : σ} {ms : List (SceneEvent κ)} {err : Option φ}
    (h : t.chronicled.settle (s, []) = ((s', ms), err)) (step : κ → σ → Attempt σ φ) :
    t.chronicle step s = ms := by
  have hkept (ks : List κ) : kept (Attempt.inTurn (fun k => beside (step k)) ks (s', ms)) = ms :=
    Attempt.inTurn_keeps (P := fun s : σ × List (SceneEvent κ) => s.2 = ms) (fun _ _ hs => hs) ks rfl
  unfold chronicle update
  rw [h]
  cases err with
  | some err => rfl
  | none =>
    rw [Attempt.andThen_none]
    exact hkept _

/-! Each change that is made tells what befell the scenes. -/

theorem chronicled_clear {k : κ} (h : (t.scenes s.1).stack = [k])
    (hlast : (t.scenes (t.dismiss k [] s.1)).stack = []) :
    t.chronicled.apply .clear s = ((t.dismiss k [] s.1, s.2 ++ [.destroyed k]), none) := by
  have hfuel : 0 < [k].length + changeLimit := Nat.add_pos_left Nat.one_pos _
  unfold apply
  simp only [show t.chronicled.scenes s = t.scenes s.1 from rfl, h]
  rw [dismissUpTo_cons (t := t.chronicled) h hfuel,
    dismissUpTo_nil (t := t.chronicled) (s := t.chronicled.dismiss k [] s) hlast, chronicled_dismiss]

end Theatre
end VisualNovel
