import VisualNovel.House.Scenes
import VisualNovel.Proofs.Dialogue.History
import VisualNovel.Proofs.House.Delivery
/-!
# The setting of a screen

Of a house the dialogue of a screen changes nothing but the bus, the jukebox, what is written down,
and the view and the gallery of its screen; the rest is the setting. What a jukebox does and what
comes of showing an image tells of no dialogue and no action.
-/
namespace VisualNovel

/-- Whether a topic is neither one of dialogues nor the actions of the player. -/
def Topic.IsAside (t : Topic) : Prop := t.isNovel = false ∧ t ≠ .actionPressed

/-! ## What a jukebox tells -/

namespace Sound

/-- Whether an effect tells of no dialogue and no action. -/
def Effect.IsAside (e : Effect) : Prop := ∀ n, e = .notice n → n.topic.IsAside

theorem Effect.aside_mixer (c : MixerCall) : (Effect.mixer c).IsAside := fun _ h => nomatch h

theorem Effect.aside_log (e : Log.Entry) : (Effect.log e).IsAside := fun _ h => nomatch h

theorem Effect.aside_notice {n : Notice} (h : n.topic.IsAside) : (Effect.notice n).IsAside :=
  fun _ hn => by
    cases hn
    exact h

namespace Jukebox

theorem play_aside (name : String) (j : Jukebox) : ∀ e ∈ (j.play name).2, e.IsAside := by
  intro e he
  unfold play at he
  split at he
  · cases List.mem_singleton.1 he
    exact Effect.aside_log _
  · cases List.mem_singleton.1 he
    exact Effect.aside_log _
  · rcases List.mem_cons.1 he with rfl | he
    · exact Effect.aside_mixer _
    · cases List.mem_singleton.1 he
      exact Effect.aside_notice ⟨rfl, nofun⟩

theorem stop_aside (name : String) (j : Jukebox) : ∀ e ∈ (j.stop name).2, e.IsAside := by
  intro e he
  unfold stop at he
  split at he
  · cases List.mem_singleton.1 he
    exact Effect.aside_log _
  · split at he
    · cases List.mem_singleton.1 he
      exact Effect.aside_log _
    · rcases List.mem_cons.1 he with rfl | he
      · exact Effect.aside_mixer _
      · cases List.mem_singleton.1 he
        exact Effect.aside_notice ⟨rfl, nofun⟩

/-- What names a cue can be looked up. -/
theorem withCue_of_isKey {name : Json} (h : name.isKey = true) (j : Jukebox) :
    ∃ r, j.withCue play name = .ok r := by
  unfold withCue
  split
  · exact ⟨_, rfl⟩
  · exact ⟨_, if_pos h⟩

/-- Whatever names a cue, to play it tells of sounds only. -/
theorem withCue_play {name : Json} {j : Jukebox} {r : Jukebox × List Effect}
    (h : j.withCue play name = .ok r) : ∀ e ∈ r.2, e.IsAside := by
  unfold withCue at h
  split at h
  · cases h
    exact play_aside _ j
  · split at h
    · cases h
      intro e he
      cases List.mem_singleton.1 he
      exact Effect.aside_log _
    · cases h

theorem aside_ite {c : Prop} [Decidable c] {r : Jukebox × List Effect} (j : Jukebox)
    (h : ∀ e ∈ r.2, e.IsAside) : ∀ e ∈ (if c then r else (j, [])).2, e.IsAside := by
  split
  · exact h
  · exact fun _ he => nomatch he

theorem switchTheme_aside (name : String) (j : Jukebox) :
    ∀ e ∈ (j.switchTheme name).2, e.IsAside := by
  intro e he
  unfold switchTheme at he
  simp only [List.mem_append, List.mem_singleton] at he
  obtain (he | he) | rfl := he
  · cases hj : j.theme with
    | none =>
      rw [hj] at he
      cases he
    | some p =>
      rw [hj] at he
      exact aside_ite j (stop_aside p j) e he
  · exact aside_ite _ (play_aside _ _) e he
  · exact Effect.aside_notice ⟨rfl, nofun⟩

end Jukebox
end Sound

namespace House
variable {τ : Type}

/-! ## The setting -/

/-- What of a screen its dialogue leaves alone. -/
structure Standing (τ : Type) where
  edition : Edition τ
  entered : Bool
  ended : Bool
  startPanel : Bool

/-- What of a house the dialogue of a screen leaves alone. -/
structure Setting (τ : Type) where
  services : Services Service Nat
  scenes : SceneStack SceneId
  running : Bool
  /-- The other screens. -/
  others : Nat → Option (Screen τ)
  /-- The number of screens. -/
  count : Nat
  own : Option (Standing τ)

def standing (s : Screen τ) : Standing τ := ⟨s.edition, s.entered, s.ended, s.view.startPanel⟩

def setting (n : Nat) (h : House τ) : Setting τ where
  services := h.services
  scenes := h.scenes
  running := h.running
  others m := if m = n then none else h.screen? m
  count := h.screens.length
  own := (h.screen? n).map standing

/-- The screen that listens to the player, if it was entered. -/
def Setting.guests (n : Nat) (B : Setting τ) : List Nat :=
  if B.own.any (·.entered) then [n] else []

variable {n k : Nat} {h : House τ}

theorem screen?_modifyScreen (n m : Nat) (f : Screen τ → Screen τ) (h : House τ) :
    (h.modifyScreen n f).screen? m = if n = m then (h.screen? m).map f else h.screen? m := by
  unfold modifyScreen screen?
  rw [List.getElem?_modify]
  split <;> simp

theorem screen?_modifyScreen_self {s : Screen τ} (hs : h.screen? n = some s)
    (f : Screen τ → Screen τ) : (h.modifyScreen n f).screen? n = some (f s) := by
  rw [screen?_modifyScreen, if_pos rfl, hs]
  rfl

theorem setting_modifyScreen {s : Screen τ} (hs : h.screen? n = some s) {f : Screen τ → Screen τ}
    (hf : standing (f s) = standing s) : (h.modifyScreen n f).setting n = h.setting n := by
  unfold setting
  congr 1
  · funext m
    by_cases hm : m = n
    · simp [hm]
    · rw [if_neg hm, if_neg hm, screen?_modifyScreen, if_neg (Ne.symm hm)]
  · exact List.length_modify ..
  · rw [screen?_modifyScreen_self hs, hs]
    exact congrArg some hf

/-! ## What is told of sounds and images -/

variable {busy : Bool} {ns : List Notice} {h' : House τ}

theorem Spreads.setting (hs : Spreads ns h h') (n : Nat) : h'.setting n = h.setting n := by
  unfold House.setting screen?
  rw [hs.screens, hs.scenes, hs.services, hs.running]

/-- What was told of dialogues. -/
def news (h : House τ) : List Notice := h.told.filter (·.topic.isNovel)

theorem Spreads.news (hs : Spreads ns h h') :
    h'.news = h.news ++ ns.filter (·.topic.isNovel) := by
  unfold House.news
  rw [hs.told, List.filter_append]

/-- What is told of other things is not told of dialogues. -/
theorem Spreads.news_of_aside (hs : Spreads ns h h') (hns : ∀ q ∈ ns, q.topic.IsAside) :
    h'.news = h.news := by
  rw [hs.news, List.filter_eq_nil_iff.2 fun q hq => by simp [(hns q hq).1], List.append_nil]

theorem Spreads.leave (h : House τ) {m : HouseMark τ} (hm : m.notice? = none) :
    Spreads [] h (h.leave m) := .of_eq rfl rfl rfl rfl rfl (by simp [House.leave, hm])

theorem Spreads.report (h : House τ) (e : Log.Entry) : Spreads [] h (h.report e) :=
  .of_eq rfl rfl rfl rfl rfl rfl

variable {pub : Publisher τ} {ds ss : List Nat}

theorem sound_spreads (hpub : Tells busy pub) (hr : Ready busy ds ss h) {e : Sound.Effect}
    (he : e.IsAside) :
    ∃ ns, (∀ q ∈ ns, q.topic.IsAside) ∧ Spreads ns h (h.sound pub e) := by
  cases e with
  | mixer c => exact ⟨[], List.forall_mem_nil _, .leave h rfl⟩
  | log e => exact ⟨[], List.forall_mem_nil _, .report h e⟩
  | notice q =>
    have haside := he q rfl
    refine ⟨[q], fun q' hq' => ?_, hpub h ds ss q hr haside.2⟩
    rw [List.mem_singleton.1 hq']
    exact haside

/-- What a jukebox does tells of nothing but sounds. -/
theorem play_spreads (hpub : Tells busy pub) (hr : Ready busy ds ss h)
    {r : Sound.Jukebox × List Sound.Effect} (hr' : ∀ e ∈ r.2, e.IsAside) :
    ∃ ns, (∀ q ∈ ns, q.topic.IsAside) ∧ Spreads ns h (h.play pub r) := by
  obtain ⟨j, es⟩ := r
  have heffects : ∀ {h : House τ}, Ready busy ds ss h →
      ∃ ns, (∀ q ∈ ns, q.topic.IsAside) ∧ Spreads ns h (es.foldl (House.sound pub) h) := by
    induction es with
    | nil => exact fun {h} _ => ⟨[], List.forall_mem_nil _, .refl h⟩
    | cons e es ih =>
      intro h hr
      obtain ⟨ns, hns, hs⟩ := sound_spreads hpub hr (hr' e (List.mem_cons_self ..))
      obtain ⟨ns', hns', hs'⟩ := ih (fun e he => hr' e (List.mem_cons_of_mem _ he))
        (hr.spreads hs fun q hq => (hns q hq).2)
      exact ⟨ns ++ ns', fun q hq => (List.mem_append.1 hq).elim (hns q) (hns' q), hs.trans hs'⟩
  have hj : Spreads [] h { h with jukebox := j } := .of_eq rfl rfl rfl rfl rfl rfl
  obtain ⟨ns, hns, hs⟩ := heffects (hr.spreads hj (List.forall_mem_nil _))
  exact ⟨[] ++ ns, hns, hj.trans hs⟩

theorem showEffects_spreads (es : List GalleryEffect) (h : House τ) :
    Spreads [] h (es.foldl (fun h e => match e with
      | .stroke s => h.leave (.stroke s)
      | .log e => h.report e) h) := by
  induction es generalizing h with
  | nil => exact .refl h
  | cons e es ih =>
    cases e with
    | stroke s => exact (Spreads.leave h rfl).trans (ih _)
    | log e => exact (Spreads.report h e).trans (ih _)

/-- To show an image changes nothing but the gallery, and may break off. -/
theorem hang_spreads (n : Nat) (h : House τ) (r : Gallery.Request) :
    Spreads [] (h.modifyScreen n fun s => { s with gallery := r.gallery }) (h.hang n r).1 := by
  have heffects := showEffects_spreads r.effects
    (h.modifyScreen n fun s => { s with gallery := r.gallery })
  unfold hang
  cases r.found <;> exact heffects

end House
end VisualNovel
