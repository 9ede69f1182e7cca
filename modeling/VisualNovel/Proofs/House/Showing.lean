import VisualNovel.Loop.Game
import VisualNovel.Proofs.House.Hearing
import VisualNovel.Proofs.House.Stack
/-!
# What a house shows

As long as nothing breaks off, a house for which one screen was asked shows one screen after the
other (`Shown`). Nothing that a game does to it besides updates changes which one it shows: it may be
told of events and actions (`Shown.publish`) and be drawn (`Shown.render`); what the devices report
does not concern its scenes.
-/
namespace VisualNovel

/-- Whether a notice that is said to tell of an action does. -/
def Notice.IsGenuine (q : Notice) : Prop :=
  q.topic = .actionPressed → ∃ a, q = Notice.actionPressed a

namespace House
variable {τ : Type} {X : Regime τ} {e : Edition τ} {q : List (SceneChange SceneId)} {up : Bool}
  {n : Nat} {s : Screen τ} {h h' h'' : House τ}

/-! ## Screens may be painted -/

/-- To paint a screen makes no difference to any. -/
theorem Plays.paint (hp : Plays X e q up n s h) (m : Nat) (p : Painter) :
    ∃ s', Plays X e q up n s' (h.modifyScreen m fun s => { s with painter := p }) ∧
      s'.entered = s.entered := by
  have ho := hp.onscreen
  have hr : Ready false (if s.dialogue.session.active then [n] else [])
      (if s.entered then [n] else []) (h.modifyScreen m fun s => { s with painter := p }) :=
    ⟨ho.ready.tuned, ho.ready.delivering, ho.ready.idle, ho.ready.waits⟩
  have hgone : ∀ k s', k ≠ n →
      (h.modifyScreen m fun s => { s with painter := p }).screen? k = some s' → Gone s' := by
    intro k s' hk hs'
    rw [screen?_modifyScreen] at hs'
    split at hs'
    · obtain ⟨s'', hs'', rfl⟩ := Option.map_eq_some_iff.1 hs'
      have hg := hp.gone k s'' hk hs''
      exact ⟨hg.active, hg.live, hg.done⟩
    · exact hp.gone k s' hk hs'
  have hcount : (h.modifyScreen m fun s => { s with painter := p }).screens.length = n + 1 :=
    (List.length_modify ..).trans hp.count
  by_cases hm : m = n
  · subst hm
    have hs := screen?_modifyScreen_self ho.screen fun s => { s with painter := p }
    exact ⟨_, ⟨⟨hs, ho.edition, hr, ho.listed, ho.rest, ho.running, ho.closed, ho.pending,
      X.lasts ho.extra ho.screen hs rfl rfl hr⟩, hp.stack, hcount, hgone, hp.dialogue, hp.waits⟩, rfl⟩
  · have hs : (h.modifyScreen m fun s => { s with painter := p }).screen? n = some s := by
      rw [screen?_modifyScreen, if_neg hm]
      exact ho.screen
    exact ⟨s, ⟨ho.relay hs ho.pending hr, hp.stack, hcount, hgone, hp.dialogue, hp.waits⟩, rfl⟩

/-! ## What is shown -/

/-- A house that shows the screen with a number, or is about to, and in which nothing broke off. -/
def Shown (e : Edition τ) (up : Bool) (n : Nat) (h : House τ) : Prop :=
  ∃ s, Plays .free e (awaited up n) up n s h ∧ Tidy up n s h

/-- What a house shows is still shown, and if it was to end it still is. -/
structure Lasts (e : Edition τ) (up : Bool) (n : Nat) (h h' : House τ) : Prop where
  shown : Shown e up n h'
  stopped : h.running = false → h'.running = false

theorem Lasts.trans (h₁ : Lasts e up n h h') (h₂ : Lasts e up n h' h'') : Lasts e up n h h'' :=
  ⟨h₂.shown, h₂.stopped ∘ h₁.stopped⟩

theorem Shown.refl (hs : Shown e up n h) : Lasts e up n h h := ⟨hs, id⟩

/-- What is neither a matter of the bus nor of scenes makes no difference. -/
theorem Shown.same (hs : Shown e up n h) (hscreens : h'.screens = h.screens)
    (hscenes : h'.scenes = h.scenes) (hservices : h'.services = h.services)
    (hbus : h'.bus = h.bus) : Shown e up n h' := by
  obtain ⟨s, hp, ht⟩ := hs
  have hr := hp.onscreen.ready
  have hscreen (m : Nat) : h'.screen? m = h.screen? m := by
    unfold screen?
    rw [hscreens]
  refine ⟨s, ⟨hp.onscreen.relay ((hscreen n).trans hp.onscreen.screen)
      (by rw [hscenes]; exact hp.onscreen.pending)
      ⟨hr.tuned.same fun t => by rw [hbus], by rw [hbus]; exact hr.delivering,
        fun hb => by rw [hbus]; exact hr.idle hb, by rw [hbus]; exact hr.waits⟩,
    by rw [hscenes]; exact hp.stack, by rw [hscreens]; exact hp.count,
    fun m s' hm hs' => hp.gone m s' hm ((hscreen m).symm.trans hs'),
    by rw [hservices]; exact hp.dialogue, hp.waits⟩,
    ht.entered, by rw [hservices]; exact ht.sounds, ht.first⟩

theorem Shown.leave (hs : Shown e up n h) (m : HouseMark τ) : Shown e up n (h.leave m) :=
  hs.same rfl rfl rfl rfl

/-- What the screen does makes no difference to what is shown. -/
theorem Shown.proceeds (hp : Plays .free e (awaited up n) up n s h) (ht : Tidy up n s h)
    {s' : Screen τ} {ns : List Notice} (hs : Proceeds .free e (awaited up n) false n s h s' h' ns) :
    Lasts e up n h h' :=
  ⟨⟨s', hp.proceeds hs, hs.entered.trans ht.entered, by rw [hs.around.services]; exact ht.sounds,
    ht.first⟩, hs.around.stopped⟩

variable [Clock τ]

/-- An event may be told, and an action of the player. -/
theorem Shown.publish (hs : Shown e up n h) {q : Notice} (hq : q.IsGenuine) :
    Lasts e up n h (h.publish q).1 := by
  obtain ⟨s, hp, ht⟩ := hs
  by_cases haction : q.topic = .actionPressed
  · obtain ⟨a, rfl⟩ := hq haction
    obtain ⟨s₁, ns₁, s₂, ns₂, hproceeds, -⟩ :=
      press_hears (hears_free e (awaited up n) n) hp.onscreen a
    exact Shown.proceeds hp ht hproceeds
  · have htold := publish_tells h _ _ q hp.onscreen.ready haction
    have hspread : ∀ q' ∈ [q], q'.topic ≠ .actionPressed := fun q' hq' => by
      rw [List.mem_singleton.1 hq']
      exact haction
    have hproceeds : Proceeds .free e (awaited up n) false n s h s (h.publish q).1
        ([q].filter (·.topic.isNovel)) :=
      ⟨hp.onscreen.spreads htold hspread, around_of_setting (htold.setting n), rfl, htold.news⟩
    exact Shown.proceeds hp ht hproceeds

omit [Clock τ] in
theorem Plays.screens (hp : Plays X e q up n s h) : ∀ k ∈ h.scenes.stack, ∃ m, k = .screen m := by
  intro k hk
  rw [hp.stack] at hk
  cases up with
  | false => cases hk
  | true => exact ⟨n, List.mem_singleton.1 hk⟩

omit [Clock τ] in
theorem foldl_stroke (h : House τ) (strokes : List Stroke) :
    strokes.foldl (fun h s => h.leave (.stroke s)) h =
      { h with marks := h.marks ++ strokes.map .stroke } := by
  induction strokes generalizing h with
  | nil => simp
  | cons s strokes ih =>
    rw [List.foldl_cons, ih]
    simp [House.leave]

omit [Clock τ] in
/-- A screen may be drawn. -/
theorem Shown.drawScreen (hs : Shown e up n h) (m : Nat) :
    Lasts e up n h (h.drawScreen m).1 := by
  unfold House.drawScreen
  cases (h.screen? m).filter (·.entered) with
  | none => exact hs.refl
  | some s =>
    simp only
    cases s.gallery.render? "screen" h.size with
    | none => exact hs.refl
    | some images =>
      simp only [foldl_stroke]
      generalize s.view.draw _ = r
      obtain ⟨painter, err⟩ := r
      obtain ⟨s', hp, ht⟩ := hs
      obtain ⟨s'', hp', hentered⟩ := hp.paint m { painter with strokes := [] }
      have hpainted : Shown e up n
          (h.modifyScreen m fun s => { s with painter := { painter with strokes := [] } }) :=
        ⟨s'', hp', hentered.trans ht.entered, ht.sounds, ht.first⟩
      exact ⟨hpainted.same rfl rfl rfl rfl, id⟩

/-- The scenes may be drawn. -/
theorem Shown.render (hs : Shown e up n h) (alpha : τ) : Lasts e up n h (h.render alpha).1 := by
  have hdraw : ∀ k (h' : House τ), Lasts e up n h h' → Lasts e up n h (drawScene alpha k h').1 := by
    intro k h' hl
    cases k with
    | screen m => exact hl.trans (hl.shown.drawScreen m)
    | cover | probe => exact ⟨hl.shown.leave _, hl.stopped⟩
  exact Attempt.inTurn_keeps hdraw _ hs.refl

end House
end VisualNovel
