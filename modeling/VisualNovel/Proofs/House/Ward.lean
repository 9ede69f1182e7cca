import VisualNovel.Proofs.Dialogue.Ward
import VisualNovel.Proofs.House.Setting
/-!
# A screen as a ward

Whatever the house around a screen refuses its dialogue, the setting stays, and nobody listens to the
player but the dialogue while it runs, the game, and the screen if it was entered (`Stays`). So the
house is a ward for the dialogue of the screen, whatever the edition asks for (`wiring_holds`).
-/
namespace VisualNovel

/-- A call changes nothing of a view that says whether the start panel is shown. -/
theorem View.perform_startPanel {c : Call} {v v' : View} (h : v.perform c = .ok v') :
    v'.startPanel = v.startPanel := by
  cases c with
  | choices offered =>
    have hshow : (v.slots.cut (offered.map Button.ofChoice)).map (hold · v) = .ok v' := h
    match hcut : v.slots.cut (offered.map Button.ofChoice) with
    | .error e =>
      rw [hcut] at hshow
      cases hshow
    | .ok kept =>
      rw [hcut] at hshow
      cases hshow
      rfl
  | hideChoices =>
    cases h
    unfold hideChoices
    dsimp only
    split <;> rfl
  | focus slot =>
    cases h
    unfold focusChoice
    split <;> rfl
  | play | stop | switchTheme | expression | splash | name | line | visible | clearFocus =>
    cases h
    rfl

namespace House
variable {τ : Type} {busy on : Bool} {n : Nat} {B : Setting τ} {N : List Notice}
  {h h' : House τ}

/-- A house in which a screen stays in its setting, where `N` was told of dialogues before; `on` says
whether the dialogue of the screen listens. -/
structure Stays (busy : Bool) (n : Nat) (B : Setting τ) (N : List Notice) (on : Bool)
    (h : House τ) : Prop where
  setting : h.setting n = B
  screen : ∃ s, h.screen? n = some s
  ready : Ready busy (if on then [n] else []) (B.guests n) h
  news : N <+: h.news

/-- A screen as the ward of its dialogue. -/
def ward (busy : Bool) (n : Nat) (B : Setting τ) (N : List Notice) : Ward (House τ) :=
  ⟨Stays busy n B N⟩

theorem Stays.spreads (hl : Stays busy n B N on h) {ns : List Notice} (hs : Spreads ns h h')
    (hns : ∀ q ∈ ns, q.topic ≠ .actionPressed) : Stays busy n B N on h' := by
  refine ⟨(hs.setting n).trans hl.setting, ?_, hl.ready.spreads hs hns, ?_⟩
  · unfold screen?
    rw [hs.screens]
    exact hl.screen
  · rw [hs.news]
    exact hl.news.trans (List.prefix_append ..)

/-- A screen may be changed as far as its dialogue may change it. -/
theorem Stays.modifyScreen (hl : Stays busy n B N on h) {f : Screen τ → Screen τ}
    (hf : ∀ s, h.screen? n = some s → standing (f s) = standing s) :
    Stays busy n B N on (h.modifyScreen n f) := by
  obtain ⟨s, hs⟩ := hl.screen
  have hr := hl.ready
  exact ⟨(setting_modifyScreen hs (hf s hs)).trans hl.setting, ⟨_, screen?_modifyScreen_self hs f⟩,
    ⟨hr.tuned, hr.delivering, hr.idle, hr.waits⟩, hl.news⟩

theorem Stays.report (hl : Stays busy n B N on h) (e : Log.Entry) : Stays busy n B N on (h.report e) :=
  hl.spreads (.report h e) (List.forall_mem_nil _)

variable {pub : Publisher τ} (hpub : Tells busy pub)
include hpub

theorem Stays.play (hl : Stays busy n B N on h) {r : Sound.Jukebox × List Sound.Effect}
    (hr : ∀ e ∈ r.2, e.IsAside) : Stays busy n B N on (h.play pub r) := by
  obtain ⟨ns, hns, hs⟩ := play_spreads hpub hl.ready hr
  exact hl.spreads hs fun q hq => (hns q hq).2

omit hpub in
theorem Stays.hang (hl : Stays busy n B N on h) (r : Gallery.Request) :
    Stays busy n B N on (h.hang n r).1 :=
  (hl.modifyScreen (f := fun s => { s with gallery := r.gallery }) fun _ _ => rfl).spreads
    (hang_spreads n h r) (List.forall_mem_nil _)

/-- Whether a call is answered or refused, the screen stays in its setting. -/
theorem Stays.perform (hl : Stays busy n B N on h) (c : Call) :
    Stays busy n B N on (perform pub n c h).1 := by
  obtain ⟨s, hs⟩ := hl.screen
  have hview (hvisual : House.perform pub n c h =
      h.fitting (s.view.perform c) fun v => h.modifyView n fun _ => v) :
      Stays busy n B N on (House.perform pub n c h).1 := by
    rw [hvisual]
    match hv : s.view.perform c with
    | .error e => exact hl
    | .ok v =>
      refine hl.modifyScreen fun s' hs' => ?_
      cases hs.symm.trans hs'
      unfold standing
      rw [View.perform_startPanel hv]
  cases c with
  | play name =>
    have hplay : House.perform pub n (.play name) h =
        h.fitting (h.jukebox.withCue Sound.Jukebox.play name) (h.play pub) := by
      simp only [House.perform, hs]
    rw [hplay]
    match hr : h.jukebox.withCue Sound.Jukebox.play name with
    | .error e => exact hl
    | .ok r => exact hl.play hpub (Sound.Jukebox.withCue_play hr)
  | stop name =>
    simp only [House.perform, hs]
    exact hl.play hpub (Sound.Jukebox.stop_aside name h.jukebox)
  | switchTheme name =>
    simp only [House.perform, hs]
    exact hl.play hpub (Sound.Jukebox.switchTheme_aside name h.jukebox)
  | expression character id =>
    simp only [House.perform, hs]
    exact hl.hang _
  | splash id =>
    simp only [House.perform, hs]
    exact hl.hang _
  | choices | name | line | visible | hideChoices | clearFocus | focus =>
    exact hview (by simp only [House.perform, hs])

/-- What a dialogue tells reaches the house in which its screen is. -/
theorem wiring_told (e : Edition τ) (q : Notice) {d : Dialogue τ Unit (House τ)}
    (hq : q.topic ≠ .actionPressed) (hl : Stays busy n B N on d.outside) :
    ∃ o, (wiring pub n e).publish q d = { d with outside := o } ∧ Stays busy n B N on o := by
  obtain ⟨s, hs⟩ := hl.screen
  have hl' : Stays busy n B N on (restore n d) := hl.modifyScreen fun _ _ => rfl
  have hspreads := hpub (restore n d) _ _ q hl'.ready hq
  have hscreen : (restore n d).screens[n]? = some { s with dialogue := d.alone } :=
    screen?_modifyScreen_self hs _
  refine ⟨(pub q (restore n d)).1, ?_, hl'.spreads hspreads fun q' hq' => ?_⟩
  · show (((pub q (restore n d)).1).dialogue? n).getD d = _
    unfold dialogue? screen?
    rw [hspreads.screens, hscreen]
    rfl
  · rw [List.mem_singleton.1 hq']
    exact hq

/-- Whatever an edition asks for, the wiring of its screen keeps the screen in its setting. -/
theorem wiring_holds (e : Edition τ) : (ward busy n B N).Holds (wiring pub n e) where
  perform on c o hl := Stays.perform hpub hl c
  report on err o hl := hl.report err
  publish on q d hq hl := wiring_told hpub e q (fun ha => by rw [ha] at hq; cases hq) hl
  listen o hl := by
    have hr := hl.ready
    rw [if_neg Bool.false_ne_true] at hr
    obtain ⟨es, hlisten, htuned⟩ := dialogue_subscribes hr.tuned n
    refine ⟨rfl, ?_⟩
    rw [show ((wiring pub n e).listen o).1 = _ from hlisten]
    exact ⟨hl.setting, hl.screen, ⟨htuned, hr.delivering, hr.idle, hr.waits⟩, hl.news⟩
  unlisten on o hl := by
    have hr := hl.ready
    have htuned := hr.tuned.dropDialogue n
    rw [show (if on then [n] else []).filter (· ≠ n) = [] by cases on <;> simp] at htuned
    exact ⟨hl.setting, hl.screen, ⟨htuned, hr.delivering, hr.idle, hr.waits⟩, hl.news⟩
  focusStart on o hl := hl.modifyScreen fun _ _ => rfl
  silence on o hl := by
    obtain ⟨s, hs⟩ := hl.screen
    show (House.perform pub n (.switchTheme "") o).2 = none
    simp only [House.perform, hs]
  hide on o hl := by
    obtain ⟨s, hs⟩ := hl.screen
    show (House.perform pub n .hideChoices o).2 = none
    simp only [House.perform, hs]
    rfl

end House
end VisualNovel
