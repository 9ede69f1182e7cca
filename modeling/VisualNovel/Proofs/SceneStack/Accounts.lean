import VisualNovel.Proofs.SceneStack.Records
/-!
# What happens on a theatre, told in full

Each change is what it does to a plain list of scenes (`SceneChange.plain?`) and what the scenes are
told because of it: those that leave the top, and the one that comes to it (`SceneChange.tells`).
An account of a theatre is the stack, the active scenes, and all that has happened; it is `Played`
if it comes of changes that were made one by one and of scenes on the stack that were told something
else in between.

The worlds that can be reached show such accounts, whatever the scenes ask for meanwhile
(`Reached.plays`).
-/
namespace VisualNovel

namespace SceneChange
variable {κ : Type}

/-- The scene that is brought. -/
def scene? : SceneChange κ → Option κ
  | .push k | .switch k => some k
  | .pop | .reload | .clear => none

/-- What a change makes of a plain list of scenes, the top first, and of the copies of scenes that
are in stock. A reload takes the next copy; without one it cannot be made. -/
def plain? : SceneChange κ → List κ × List κ → Option (List κ × List κ)
  | .push k, (stack, copies) => some (k :: stack, copies)
  | .pop, (stack, copies) => some (stack.tail, copies)
  | .switch k, (stack, copies) => some (k :: stack.tail, copies)
  | .reload, ([], copies) => some ([], copies)
  | .reload, (_ :: below, copy :: copies) => some (copy :: below, copies)
  | .reload, (_ :: _, []) => none
  | .clear, (_, copies) => some ([], copies)

/-- What a scene is told that is removed. -/
def removal (k : κ) : List (Telling κ) := [⟨.exit, k⟩, ⟨.destroy, k⟩]

/-- What the scenes are told that leave the top or the stack. -/
def farewells : SceneChange κ → (stack : List κ) → List (Telling κ)
  | .push _, stack => stack.head?.toList.map (⟨.exit, ·⟩)
  | .pop, stack | .switch _, stack | .reload, stack => stack.head?.toList.flatMap removal
  | .clear, stack => stack.flatMap removal

/-- What the scenes are told in a change from one stack to another: farewells, and to the scene that
is on top then, that it is. -/
def tells (c : SceneChange κ) (stack stack' : List κ) : List (Telling κ) :=
  c.farewells stack ++ stack'.head?.toList.map (⟨.enter, ·⟩)

end SceneChange

/-- Whether a cue tells a scene that it comes or goes. -/
def SceneCue.comesOrGoes : SceneCue → Bool
  | .enter | .exit | .destroy => true
  | .resize | .update | .render | .handle => false

/-- What there is to be said of a theatre. -/
structure SceneAccount (κ : Type) where
  stack : List κ := []
  active : List κ := []
  told : List (Telling κ) := []
  copies : List κ := []
  /-- The changes that were made. -/
  made : List (SceneChange κ) := []

namespace SceneAccount
variable {κ : Type}

/-- A change is made: the stack becomes another, with a copy if one was needed. -/
def change (c : SceneChange κ) (stack copied : List κ) (a : SceneAccount κ) : SceneAccount κ where
  stack := stack
  active := stack.head?.toList
  told := a.told ++ c.tells a.stack stack
  copies := a.copies ++ copied
  made := a.made ++ [c]

/-- Something is said. -/
def tell (said : List (Telling κ)) (a : SceneAccount κ) : SceneAccount κ :=
  { a with told := a.told ++ said }

/-- The accounts of theatres where each change is made as on a plain list, and where apart from that
only scenes of the stack are told anything. -/
inductive Played : SceneAccount κ → Prop
  | opening : Played {}
  | change {a : SceneAccount κ} {c : SceneChange κ} {stack copied : List κ} (ha : Played a)
      (hplain : c.plain? (a.stack, copied) = some (stack, [])) : Played (a.change c stack copied)
  | tell {a : SceneAccount κ} {cue : SceneCue} {k : κ} (ha : Played a)
      (hcue : cue.comesOrGoes = false) (hk : k ∈ a.stack) : Played (a.tell [⟨cue, k⟩])

theorem Played.active {a : SceneAccount κ} (ha : a.Played) : a.active = a.stack.head?.toList := by
  induction ha with
  | opening => rfl
  | change => rfl
  | tell _ _ _ ih => exact ih

/-! ## The steps of a change -/

variable [DecidableEq κ]

/-- A scene becomes active. -/
def enter (k : κ) (a : SceneAccount κ) : SceneAccount κ :=
  { a with active := k :: a.active.filter (· ≠ k), told := a.told ++ [⟨.enter, k⟩] }

/-- A scene is active no more. -/
def exit (k : κ) (a : SceneAccount κ) : SceneAccount κ :=
  { a with active := a.active.filter (· ≠ k), told := a.told ++ [⟨.exit, k⟩] }

/-- A scene is removed from the top of the stack; `below` is what lies under it. -/
def dismiss (k : κ) (below : List κ) (a : SceneAccount κ) : SceneAccount κ :=
  (exit k { a with stack := below }).tell [⟨.destroy, k⟩]

end SceneAccount

namespace Theatre
variable {σ κ φ : Type} {t : Theatre σ κ φ} {calm : σ → Prop}

/-- What there is to be said of a world and its record: the changes that were asked for are those
that were made and those that wait. -/
structure Shows (t : Theatre σ κ φ) (calm : σ → Prop) (w : σ × SceneRecord κ)
    (a : SceneAccount κ) : Prop where
  calm : calm w.1
  stack : (t.scenes w.1).stack = a.stack
  active : (t.scenes w.1).active = a.active
  told : w.2.told = a.told
  copies : w.2.copies = a.copies
  asked : w.2.asked = a.made ++ (t.scenes w.1).pending

namespace Shows
variable {w : σ × SceneRecord κ} {a : SceneAccount κ}

/-- Where a scene only asks for changes, it is told something and that is all. -/
theorem noted {s' : σ} (hw : t.Shows calm w a) (h : t.Asks calm w.1 s') (said : List (Telling κ)) :
    t.Shows calm (t.noted said w s') (a.tell said) where
  calm := h.1
  stack := h.stack.trans hw.stack
  active := h.active.trans hw.active
  told := congrArg (· ++ said) hw.told
  copies := hw.copies
  asked := by
    change w.2.asked ++ t.askedFor w.1 s' = a.made ++ (t.scenes s').pending
    rw [hw.asked, h.pending, List.append_assoc]

theorem silent {s' : σ} (hw : t.Shows calm w a) (h : t.Asks calm w.1 s') :
    t.Shows calm (t.noted [] w s') a := by
  have hnoted := hw.noted h []
  unfold SceneAccount.tell at hnoted
  rw [List.append_nil] at hnoted
  exact hnoted

variable (ht : t.Lawful calm)
include ht

/-- The stack and the active scenes are arranged anew. -/
theorem modify (hw : t.Shows calm w a) (f : SceneStack κ → SceneStack κ) (stack active : List κ)
    (hf : ∀ pending, f ⟨a.stack, pending, a.active⟩ = ⟨stack, pending, active⟩) :
    t.Shows calm (t.recorded.modify f w) { a with stack, active } := by
  have hscenes : t.scenes (t.withScenes (f (t.scenes w.1)) w.1) =
      ⟨stack, (t.scenes w.1).pending, active⟩ := by
    rw [ht.scenes_withScenes, ← hf, ← hw.stack, ← hw.active]
  refine ⟨ht.withScenes _ _ hw.calm, ?_, ?_, hw.told, hw.copies, ?_⟩
  · exact congrArg SceneStack.stack hscenes
  · exact congrArg SceneStack.active hscenes
  · exact hw.asked.trans (congrArg (a.made ++ SceneStack.pending ·) hscenes).symm

/-- The next change is taken up. -/
theorem takeUp {c : SceneChange κ} {rest : List (SceneChange κ)} (hw : t.Shows calm w a)
    (hpending : (t.scenes w.1).pending = c :: rest) :
    t.Shows calm (t.recorded.modify (fun c => { c with pending := rest }) w)
      { a with made := a.made ++ [c] } := by
  have hscenes : t.scenes (t.withScenes { t.scenes w.1 with pending := rest } w.1) =
      { t.scenes w.1 with pending := rest } := ht.scenes_withScenes _ _
  refine ⟨ht.withScenes _ _ hw.calm, ?_, ?_, hw.told, hw.copies, ?_⟩
  · exact (congrArg SceneStack.stack hscenes).trans hw.stack
  · exact (congrArg SceneStack.active hscenes).trans hw.active
  · rw [List.append_assoc]
    refine hw.asked.trans (congrArg (a.made ++ ·) ?_)
    exact hpending.trans (congrArg (c :: ·) (congrArg SceneStack.pending hscenes).symm)

/-! ## The steps of a change -/

section
variable [DecidableEq κ]

theorem activate (hw : t.Shows calm w a) (k : κ) :
    t.Shows calm (t.recorded.activate k w).1 (a.enter k) := by
  have hmodify := hw.modify ht (fun c => { c with active := k :: c.active.filter (· ≠ k) })
    a.stack (k :: a.active.filter (· ≠ k)) fun _ => rfl
  exact hmodify.noted (ht.enter k _ hmodify.calm) _

theorem deactivate (hw : t.Shows calm w a) (k : κ) :
    t.Shows calm (t.recorded.deactivate k w) (a.exit k) := by
  have hmodify := hw.modify ht (fun c => { c with active := c.active.filter (· ≠ k) })
    a.stack (a.active.filter (· ≠ k)) fun _ => rfl
  exact hmodify.noted (ht.exit k _ hmodify.calm) _

theorem dismiss (hw : t.Shows calm w a) (k : κ) (below : List κ) :
    t.Shows calm (t.recorded.dismiss k below w) (a.dismiss k below) := by
  have hmodify := hw.modify ht (fun c => { c with stack := below }) below a.active fun _ => rfl
  have hexit := hmodify.deactivate ht k
  exact hexit.noted (ht.destroy k _ hexit.calm) _

/-- Whether it refuses or not, a scene that is placed is on top and active. -/
theorem place (hw : t.Shows calm w a) (topic : Topic) (k : κ) :
    t.Shows calm (t.recorded.place topic k w).1
      (SceneAccount.enter k { a with stack := k :: a.stack }) := by
  have hmodify := hw.modify ht (fun c => { c with stack := k :: c.stack }) (k :: a.stack) a.active
    fun _ => rfl
  have hactivate := hmodify.activate ht k
  unfold Theatre.place
  generalize t.recorded.activate k _ = r at hactivate
  obtain ⟨w', err⟩ := r
  cases err with
  | none => exact hactivate.silent (ht.publish topic k _ hactivate.calm)
  | some err => exact hactivate

/-- To remove all scenes tells each that it goes and that it is removed, from the top down. -/
theorem dismissUpTo {fuel : Nat} (hw : t.Shows calm w a) (hfuel : a.stack.length ≤ fuel)
    (hactive : ∀ k ∈ a.active, k ∈ a.stack) :
    t.Shows calm (t.recorded.dismissUpTo fuel w) { a with
      stack := []
      active := []
      told := a.told ++ a.stack.flatMap SceneChange.removal } := by
  generalize hstack : a.stack = stack at *
  induction stack generalizing w a fuel with
  | nil =>
    have hnone : a.active = [] := List.eq_nil_iff_forall_not_mem.2 fun k hk => by
      have hmem := hactive k hk
      cases hmem
    rw [dismissUpTo_nil (t := t.recorded) (hw.stack.trans hstack)]
    obtain ⟨stack, active, told, copies, made⟩ := a
    subst hstack hnone
    simpa using hw
  | cons k below ih =>
    have hlength : below.length ≤ fuel - 1 := by
      simp only [List.length_cons] at hfuel
      omega
    have hbelow : ∀ x ∈ (a.dismiss k below).active, x ∈ below := by
      intro x hx
      obtain ⟨hmem, hne⟩ := List.mem_filter.1 hx
      have hcons := List.mem_cons.1 (hactive x hmem)
      simp only [decide_eq_true_eq] at hne
      exact hcons.resolve_left hne
    have hnext := ih (hw.dismiss ht k below) rfl hlength hbelow
    rw [dismissUpTo_cons (t := t.recorded) (hw.stack.trans hstack)
      (by simp only [List.length_cons] at hfuel; omega)]
    simpa [SceneChange.removal, SceneAccount.dismiss, SceneAccount.exit, SceneAccount.tell]
      using hnext

theorem uncover (hw : t.Shows calm w a) (hactive : a.active = []) :
    t.Shows calm (t.recorded.uncover w).1 { a with
      active := a.stack.head?.toList
      told := a.told ++ a.stack.head?.toList.map (⟨.enter, ·⟩) } := by
  obtain ⟨stack, active, told, copies, made⟩ := a
  subst hactive
  unfold Theatre.uncover
  rw [show (t.recorded.scenes w).stack = stack from hw.stack]
  cases stack with
  | nil => simpa using hw
  | cons k below => exact hw.activate ht k

omit [DecidableEq κ] in
theorem recreate (hw : t.Shows calm w a) (k : κ) :
    t.Shows calm (t.recorded.recreate k w).1
      { a with copies := a.copies ++ [(t.recorded.recreate k w).2] } := by
  have hsilent := hw.silent (ht.recreate k _ hw.calm)
  exact { hsilent with copies := congrArg (· ++ [(t.recreate k w.1).2]) hw.copies }

omit [DecidableEq κ] in
theorem publish (hw : t.Shows calm w a) (topic : Topic) (k : κ) :
    t.Shows calm (t.recorded.publish topic k w) a := hw.silent (ht.publish topic k _ hw.calm)

/-- What a change does, whatever is asked for meanwhile. -/
theorem apply {c : SceneChange κ} (hw : t.Shows calm w { a with made := a.made ++ [c] })
    (hactive : a.active = a.stack.head?.toList) :
    ∃ stack copied, c.plain? (a.stack, copied) = some (stack, []) ∧
      t.Shows calm (t.recorded.apply c w).1 (a.change c stack copied) := by
  obtain ⟨stack, active, told, copies, made⟩ := a
  dsimp only at hactive hw ⊢
  subst hactive
  unfold Theatre.apply SceneAccount.change SceneChange.tells
  rw [show (t.recorded.scenes w).stack = stack from hw.stack]
  cases c with
  | push k =>
    refine ⟨k :: stack, [], rfl, ?_⟩
    cases stack with
    | nil =>
      have hplace := hw.place ht .scenePushed k
      simpa [SceneAccount.enter, SceneChange.farewells] using hplace
    | cons top below =>
      have hplace := (hw.deactivate ht top).place ht .scenePushed k
      simpa [SceneAccount.enter, SceneAccount.exit, SceneChange.farewells] using hplace
  | pop =>
    refine ⟨stack.tail, [], rfl, ?_⟩
    cases stack with
    | nil => simpa [SceneChange.farewells] using hw
    | cons top below =>
      have hpublish := (hw.dismiss ht top below).publish ht .scenePopped top
      have huncover := hpublish.uncover ht (by simp [SceneAccount.dismiss, SceneAccount.exit,
        SceneAccount.tell])
      simpa [SceneAccount.dismiss, SceneAccount.exit, SceneAccount.tell, SceneChange.farewells,
        SceneChange.removal] using huncover
  | switch k =>
    refine ⟨k :: stack.tail, [], rfl, ?_⟩
    cases stack with
    | nil =>
      have hplace := hw.place ht .sceneSwitched k
      simpa [SceneAccount.enter, SceneChange.farewells] using hplace
    | cons top below =>
      have hplace := (hw.dismiss ht top below).place ht .sceneSwitched k
      simpa [SceneAccount.enter, SceneAccount.dismiss, SceneAccount.exit, SceneAccount.tell,
        SceneChange.farewells, SceneChange.removal] using hplace
  | reload =>
    cases stack with
    | nil =>
      refine ⟨[], [], rfl, ?_⟩
      simpa [SceneChange.farewells] using hw
    | cons top below =>
      have hcopy := (hw.dismiss ht top below).recreate ht top
      let copy := (t.recorded.recreate top (t.recorded.dismiss top below w)).2
      have hplace := hcopy.place ht .sceneReloaded copy
      refine ⟨copy :: below, [copy], rfl, ?_⟩
      simpa [SceneAccount.enter, SceneAccount.dismiss, SceneAccount.exit, SceneAccount.tell,
        SceneChange.farewells, SceneChange.removal] using hplace
  | clear =>
    have hfuel : stack.length ≤ stack.length + changeLimit := Nat.le_add_right _ _
    have hall := hw.dismissUpTo ht hfuel fun k hk =>
      List.mem_of_mem_head? (Option.mem_toList.1 hk)
    refine ⟨[], [], rfl, ?_⟩
    simpa [SceneChange.farewells] using hall

end
end Shows

/-! ## Runs -/

/-- A world with an account of changes that were made one by one. -/
def Plays (t : Theatre σ κ φ) (calm : σ → Prop) (w : σ × SceneRecord κ) : Prop :=
  ∃ a, t.Shows calm w a ∧ a.Played

variable {w : σ × SceneRecord κ}

namespace Plays

theorem isCalm (hw : t.Plays calm w) : calm w.1 := by
  obtain ⟨a, hshows, -⟩ := hw
  exact hshows.calm

/-- A scene of the stack is told something other than that it comes or goes. -/
theorem noted {s' : σ} {cue : SceneCue} {k : κ} (hw : t.Plays calm w)
    (h : t.Asks calm w.1 s') (hcue : cue.comesOrGoes = false) (hk : k ∈ (t.scenes w.1).stack) :
    t.Plays calm (t.noted [⟨cue, k⟩] w s') := by
  obtain ⟨a, hshows, hplayed⟩ := hw
  rw [hshows.stack] at hk
  exact ⟨_, hshows.noted h _, hplayed.tell hcue hk⟩

/-- Scenes of the stack are told something in turn. -/
theorem inTurn {step : κ → σ → Attempt σ φ} {cue : SceneCue} (hw : t.Plays calm w)
    (hstep : ∀ k s, calm s → t.Asks calm s (step k s).1) (hcue : cue.comesOrGoes = false)
    {ks : List κ} (hks : ∀ k ∈ ks, k ∈ (t.scenes w.1).stack) :
    t.Plays calm (Attempt.inTurn (t.telling cue step) ks w).1 := by
  induction ks generalizing w with
  | nil => exact hw
  | cons k ks ih =>
    have hasks := hstep k w.1 hw.isCalm
    have htold := hw.noted hasks hcue (hks k List.mem_cons_self)
    unfold Attempt.inTurn telling
    cases (step k w.1).2 with
    | some err => exact htold
    | none =>
      refine ih htold ?_
      intro k' hk'
      rw [show (t.scenes (t.noted [⟨cue, k⟩] w (step k w.1).1).1).stack = _ from hasks.stack]
      exact hks k' (List.mem_cons_of_mem _ hk')

theorem onEachFrom {handle : κ → σ → σ} (hw : t.Plays calm w)
    (hhandle : ∀ k s, calm s → t.Asks calm s (handle k s)) (fuel height : Nat) :
    t.Plays calm (t.recorded.onEachFrom (fun k w => t.noted [⟨.resize, k⟩] w (handle k w.1))
      fuel height w) := by
  induction fuel generalizing w height with
  | zero => exact hw
  | succ fuel ih =>
    unfold Theatre.onEachFrom
    split
    · exact hw
    · next k hk =>
      have hmem : k ∈ (t.scenes w.1).stack := List.mem_reverse.1 (List.mem_of_getElem? hk)
      exact ih (hw.noted (hhandle k w.1 hw.isCalm) rfl hmem) _

theorem settleUpTo [DecidableEq κ] (ht : t.Lawful calm) (fuel : Nat) (hw : t.Plays calm w) :
    t.Plays calm (t.recorded.settleUpTo fuel w).1 := by
  induction fuel generalizing w with
  | zero => exact hw
  | succ fuel ih =>
    obtain ⟨a, hshows, hplayed⟩ := hw
    cases hpending : (t.recorded.scenes w).pending with
    | nil =>
      rw [settleUpTo_nil hpending]
      exact ⟨a, hshows, hplayed⟩
    | cons c rest =>
      rw [settleUpTo_cons hpending fuel.succ_pos]
      refine Attempt.andThen_keeps ?_ fun w hw => ih hw
      obtain ⟨stack, copied, hplain, happly⟩ := (hshows.takeUp ht hpending).apply ht hplayed.active
      exact ⟨_, happly, hplayed.change hplain⟩

end Plays

theorem mem_of_mem_downTo {stops : κ → Bool} {stack : List κ} {k : κ}
    (hk : k ∈ SceneStack.downTo stops stack) : k ∈ stack := by
  induction stack with
  | nil => exact hk
  | cons top below ih =>
    unfold SceneStack.downTo at hk
    split at hk
    · rw [List.mem_singleton] at hk
      exact hk ▸ List.mem_cons_self
    · rcases List.mem_cons.1 hk with rfl | hbelow
      · exact List.mem_cons_self
      · exact List.mem_cons_of_mem _ (ih hbelow)

/-- **Whatever is done with scenes** that only ask for changes, there is an account of it in which
the changes were made one by one, in the order in which they were asked for. -/
theorem Reached.plays [DecidableEq κ] (ht : t.Lawful calm) (hw : t.Reached calm w) :
    t.Plays calm w := by
  induction hw with
  | opening hcalm hscenes =>
    refine ⟨{}, ⟨hcalm, ?_, ?_, rfl, rfl, ?_⟩, .opening⟩
    · rw [hscenes]
    · rw [hscenes]
    · rw [hscenes]
      rfl
  | outside _ hasks ih =>
    obtain ⟨a, hshows, hplayed⟩ := ih
    exact ⟨a, hshows.silent hasks, hplayed⟩
  | settle fuel _ ih => exact ih.settleUpTo ht fuel
  | update _ hstep ih =>
    refine Attempt.andThen_keeps (ih.settleUpTo ht _) fun w hw => ?_
    refine hw.inTurn hstep rfl fun k hk => ?_
    exact mem_of_mem_downTo (List.mem_reverse.1 hk)
  | render _ hdraw ih =>
    refine ih.inTurn hdraw rfl fun k hk => ?_
    exact mem_of_mem_downTo (List.mem_reverse.1 hk)
  | @handle w _ _ hhandle ih =>
    unfold onTop
    cases hk : (t.recorded.scenes w).current? with
    | none => exact ih
    | some k => exact ih.noted (hhandle k w.1 ih.isCalm) rfl (List.mem_of_mem_head? hk)
  | resize _ hresize ih => exact ih.onEachFrom hresize _ _

end Theatre
end VisualNovel
