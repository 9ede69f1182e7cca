import VisualNovel.Proofs.House.Setting
import VisualNovel.Proofs.View
/-!
# A screen as a chamber

The house around a screen is a chamber for the dialogue of the screen (`chamber`, `fits`), whether an
event is being delivered or not: nobody but the recorder hears what a dialogue publishes.
-/
namespace VisualNovel.House
variable {τ : Type} {n k : Nat} {h : House τ}

/-! ## The chamber -/

/-- A house in which a screen with room for `k` choices is, while an event is being delivered or
not. -/
structure Lodges (busy : Bool) (n k : Nat) (B : Setting τ) (h : House τ) : Prop where
  setting : h.setting n = B
  screen : ∃ s, h.screen? n = some s ∧ s.view.Sound k
  ready : ∃ ears, Ready busy (List.replicate ears n) (B.guests n) h

/-- What can be seen of a house that matters to the dialogue of a screen. -/
def prospect (n : Nat) (h : House τ) : Prospect where
  panel := (h.screen? n).map (·.view.panel)
  ears := ((h.bus.table .actionPressed).filter (·.handler = .dialogue n)).length
  news := h.told.filter (·.topic.isNovel)

/-- A screen with room for `k` choices as the chamber of its dialogue. -/
def chamber (busy : Bool) (n k : Nat) (B : Setting τ) (T : Timetable τ) :
    Chamber τ (House τ) where
  ok := Lodges busy n k B
  prospect := prospect n
  slots := k
  table := T
  frail := True
  named j := j.isKey = true

variable {busy : Bool} {B : Setting τ} {T : Timetable τ} {ns : List Notice} {h' : House τ}

theorem Lodges.spreads (hl : Lodges busy n k B h) (hs : Spreads ns h h')
    (hns : ∀ q ∈ ns, q.topic ≠ .actionPressed) : Lodges busy n k B h' := by
  obtain ⟨ears, hr⟩ := hl.ready
  refine ⟨(hs.setting n).trans hl.setting, ?_, ears, hr.spreads hs hns⟩
  unfold screen?
  rw [hs.screens]
  exact hl.screen

theorem prospect_spreads (hs : Spreads ns h h') (n : Nat) :
    prospect n h' =
      { prospect n h with
        news := (prospect n h).news ++ ns.filter (·.topic.isNovel) } := by
  unfold prospect screen?
  rw [hs.screens, hs.table, hs.told, List.filter_append]

/-- In a chamber nothing is noticed of what is told of other things than dialogues. -/
theorem keeps_of_spreads (hl : Lodges busy n k B h) (hs : Spreads ns h h')
    (hns : ∀ q ∈ ns, q.topic.IsAside) : (chamber busy n k B T).Keeps id h h' := by
  refine ⟨hl.spreads hs fun q hq => (hns q hq).2, ?_⟩
  have hnil : ns.filter (·.topic.isNovel) = [] :=
    List.filter_eq_nil_iff.2 fun q hq => by simp [(hns q hq).1]
  show prospect n h' = prospect n h
  rw [prospect_spreads hs, hnil, List.append_nil]

/-- A screen may be changed as far as its dialogue may change it. -/
theorem Lodges.modifyScreen (hl : Lodges busy n k B h) {s : Screen τ} (hs : h.screen? n = some s)
    {f : Screen τ → Screen τ} (hf : standing (f s) = standing s) (hsound : (f s).view.Sound k) :
    Lodges busy n k B (h.modifyScreen n f) := by
  obtain ⟨ears, hr⟩ := hl.ready
  exact ⟨(setting_modifyScreen hs hf).trans hl.setting,
    ⟨_, screen?_modifyScreen_self hs f, hsound⟩, ears, hr.tuned, hr.delivering, hr.idle, hr.waits⟩

theorem prospect_modifyScreen {s : Screen τ} (hs : h.screen? n = some s) (f : Screen τ → Screen τ) :
    prospect n (h.modifyScreen n f) =
      { prospect n h with panel := some (f s).view.panel } := by
  unfold prospect
  rw [screen?_modifyScreen_self hs]
  rfl

/-- A change of the view is noticed as a change of the panel. -/
theorem keeps_modifyView (hl : Lodges busy n k B h) {s : Screen τ} (hs : h.screen? n = some s)
    {f : View → View} (hsound : (f s.view).Sound k) (hstart : (f s.view).startPanel = s.view.startPanel)
    {g : Prospect → Prospect} (hg : ∀ p : Prospect, p.panel = some s.view.panel →
      g p = { p with panel := some (f s.view).panel }) :
    (chamber busy n k B T).Keeps g h (h.modifyView n f) := by
  refine ⟨hl.modifyScreen hs ?_ hsound, ?_⟩
  · unfold standing
    rw [hstart]
  · show prospect n (h.modifyScreen n _) = g (prospect n h)
    rw [prospect_modifyScreen hs, hg]
    show (h.screen? n).map _ = _
    rw [hs]
    rfl

/-! ## The wiring of a screen -/

variable {pub : Publisher τ} {ds ss : List Nat}

/-- To show an image makes no difference to the dialogue. -/
theorem hang_keeps (hl : Lodges busy n k B h) (r : Gallery.Request) :
    (chamber busy n k B T).Keeps id h (h.hang n r).1 := by
  obtain ⟨s, hs, hsound⟩ := hl.screen
  have hl' := hl.modifyScreen hs (f := fun s => { s with gallery := r.gallery }) rfl hsound
  have hprospect : prospect n (h.modifyScreen n fun s => { s with gallery := r.gallery }) =
      prospect n h := by
    rw [prospect_modifyScreen hs]
    unfold prospect
    rw [hs]
    rfl
  have hk := keeps_of_spreads (T := T) hl' (hang_spreads n h r) (List.forall_mem_nil _)
  exact ⟨hk.1, hk.2.trans hprospect⟩

theorem performs (hpub : Tells busy pub) {c : Call} (hl : Lodges busy n k B h)
    (hc : (chamber busy n k B T).Allows c) :
    ∃ h' e, perform pub n c h = (h', e) ∧ (chamber busy n k B T).Keeps (·.after c) h h' ∧
      (e = none ∨ (chamber busy n k B T).frail ∧ c.isImage = true) := by
  obtain ⟨s, hs, hsound⟩ := hl.screen
  obtain ⟨ears, hr⟩ := hl.ready
  -- Calls for sounds are told of; the others are answered by the gallery or the view.
  have hsounds {r : Sound.Jukebox × List Sound.Effect} (hr' : ∀ e ∈ r.2, e.IsAside) :
      (chamber busy n k B T).Keeps id h (h.play pub r) := by
    obtain ⟨ns, hns, hspreads⟩ := play_spreads hpub hr hr'
    exact keeps_of_spreads hl hspreads hns
  have hview (hvisual : perform pub n c h =
      h.fitting (s.view.perform c) fun v => h.modifyView n fun _ => v) (hlen : ∀ cs,
        c = .choices cs → cs.length ≤ k) : ∃ h' e, perform pub n c h = (h', e) ∧
      (chamber busy n k B T).Keeps (·.after c) h h' ∧
        (e = none ∨ (chamber busy n k B T).frail ∧ c.isImage = true) := by
    obtain ⟨v, hv, hsound', hpanel, hstart⟩ := View.perform_eq hsound hlen
    refine ⟨h.modifyView n fun _ => v, none, ?_, keeps_modifyView hl hs hsound' hstart
      fun p hp => ?_, Or.inl rfl⟩
    · rw [hvisual, hv]
      rfl
    · unfold Prospect.after
      rw [hp]
      exact congrArg (fun q => { p with panel := some q }) hpanel.symm
  cases c with
  | play name =>
    obtain ⟨r, hplay⟩ := Sound.Jukebox.withCue_of_isKey (show name.isKey = true from hc) h.jukebox
    have haside := Sound.Jukebox.withCue_play hplay
    refine ⟨h.play pub r, none, ?_, ?_, Or.inl rfl⟩
    · simp only [perform, hs, hplay, fitting]
    · exact ⟨(hsounds haside).1, (hsounds haside).2.trans (Prospect.after_eq_self rfl _).symm⟩
  | stop name =>
    have haside := Sound.Jukebox.stop_aside name h.jukebox
    exact ⟨_, none, by simp only [perform, hs], ⟨(hsounds haside).1,
      (hsounds haside).2.trans (Prospect.after_eq_self rfl _).symm⟩, Or.inl rfl⟩
  | switchTheme name =>
    have haside := Sound.Jukebox.switchTheme_aside name h.jukebox
    exact ⟨_, none, by simp only [perform, hs], ⟨(hsounds haside).1,
      (hsounds haside).2.trans (Prospect.after_eq_self rfl _).symm⟩, Or.inl rfl⟩
  | expression character id =>
    have hk := hang_keeps (T := T) hl
      (s.gallery.setExpression h.disk h.converts (.str character) (.str id))
    exact ⟨_, _, (by simp only [perform, hs]; exact Prod.mk.eta.symm),
      ⟨hk.1, hk.2.trans (Prospect.after_eq_self rfl _).symm⟩, Or.inr ⟨trivial, rfl⟩⟩
  | splash id =>
    have hk := hang_keeps (T := T) hl (s.gallery.setSplash h.disk h.converts (.str id))
    exact ⟨_, _, (by simp only [perform, hs]; exact Prod.mk.eta.symm),
      ⟨hk.1, hk.2.trans (Prospect.after_eq_self rfl _).symm⟩, Or.inr ⟨trivial, rfl⟩⟩
  | choices cs =>
    exact hview (by simp only [perform, hs]) fun cs hcs => by
      cases hcs
      exact hc
  | name | line | visible | hideChoices | clearFocus | focus =>
    exact hview (by simp only [perform, hs]) nofun

theorem wiring_publish (hpub : Tells busy pub) (e : Edition τ) (q : Notice)
    {d : Dialogue τ Unit (House τ)} (hq : q.topic.isNovel = true)
    (hl : Lodges busy n k B d.outside) :
    ∃ o, (wiring pub n e).publish q d = { d with outside := o } ∧
      (chamber busy n k B T).Keeps (·.told q) d.outside o := by
  obtain ⟨s, hs, hsound⟩ := hl.screen
  have haction : q.topic ≠ .actionPressed := fun h => by
    rw [h] at hq
    cases hq
  have hl' : Lodges busy n k B (restore n d) := hl.modifyScreen hs rfl hsound
  obtain ⟨ears, hr⟩ := hl'.ready
  have hspreads := hpub (restore n d) _ _ q hr haction
  have hscreen : (restore n d).screen? n = some { s with dialogue := d.alone } :=
    screen?_modifyScreen_self hs _
  refine ⟨(pub q (restore n d)).1, ?_, hl'.spreads hspreads fun q' hq' => ?_, ?_⟩
  · show (((pub q (restore n d)).1).dialogue? n).getD d = _
    unfold dialogue? screen?
    rw [hspreads.screens]
    rw [show (restore n d).screens[n]? = _ from hscreen]
    rfl
  · rw [List.mem_singleton.1 hq']
    exact haction
  · show prospect n (pub q (restore n d)).1 = (prospect n d.outside).told q
    have hnovel : [q].filter (·.topic.isNovel) = [q] := by simp [hq]
    rw [prospect_spreads hspreads, hnovel]
    unfold restore
    rw [prospect_modifyScreen hs]
    unfold prospect Prospect.told
    rw [hs]
    rfl

theorem ears_replicate (m : Nat) (hr : Ready busy (List.replicate m n) ss h) :
    (prospect n h).ears = m := by
  unfold prospect
  rw [hr.tuned.actions]
  have hds : (List.replicate m (dialogueEntry n)).filter
      (fun e => decide (e.handler = .dialogue n)) = List.replicate m (dialogueEntry n) := by
    refine List.filter_eq_self.2 fun e he => ?_
    rw [List.eq_of_mem_replicate he]
    simp [dialogueEntry]
  have hss : (ss.map screenEntry).filter (fun e => decide (e.handler = .dialogue n)) = [] := by
    refine List.filter_eq_nil_iff.2 fun e he => ?_
    obtain ⟨i, -, rfl⟩ := List.mem_map.1 he
    simp [screenEntry]
  simp [recorderEntry, gameEntry, hds, hss]

/-- The wiring of a screen fits its chamber. -/
theorem fits [Clock τ] (hpub : Tells busy pub) {e : Edition τ} (hsound : e.sound.isKey = true)
    (hT : T.Runs e.interval) : (chamber busy n k B T).Fits (wiring pub n e) where
  runs := hT
  slots h hl := by
    obtain ⟨s, hs, hsound⟩ := hl.screen
    show ((h.screen? n).map (·.view.slots)).getD (.count 0) = _
    rw [hs]
    exact hsound.slots
  sound := hsound
  texts _ := rfl
  perform c h hl hc := performs hpub hl hc
  report e h hl := keeps_of_spreads hl (.report h e) (List.forall_mem_nil _)
  publish q d hq hl := wiring_publish hpub e q hq hl
  listen h hl := by
    obtain ⟨ears, hr⟩ := hl.ready
    obtain ⟨es, hlisten, htuned⟩ := dialogue_subscribes hr.tuned n
    rw [show List.replicate ears n ++ [n] = List.replicate (ears + 1) n from
      (List.replicate_succ' ..).symm] at htuned
    have hr' : Ready busy (List.replicate (ears + 1) n) (B.guests n)
        { h with bus := h.bus.setTable .actionPressed es } :=
      ⟨htuned, hr.delivering, hr.idle, hr.waits⟩
    refine ⟨_, rfl, ?_, ?_⟩
    · rw [hlisten]
      exact ⟨hl.setting, hl.screen, _, hr'⟩
    · rw [hlisten]
      have h₁ := ears_replicate _ hr
      have h₂ := ears_replicate _ hr'
      show prospect n _ = { prospect n h with ears := (prospect n h).ears + 1 }
      rw [h₁, ← h₂]
      rfl
  unlisten h hl := by
    obtain ⟨ears, hr⟩ := hl.ready
    have htuned := hr.tuned.dropDialogue n
    have hnone : (List.replicate ears n).filter (· ≠ n) = List.replicate 0 n := by
      refine List.filter_eq_nil_iff.2 fun m hm => ?_
      simp [List.eq_of_mem_replicate hm]
    rw [hnone] at htuned
    have hr' : Ready busy (List.replicate 0 n) (B.guests n)
        (h.unsubscribe .actionPressed (.dialogue n)) :=
      ⟨htuned, hr.delivering, hr.idle, hr.waits⟩
    refine ⟨⟨hl.setting, hl.screen, 0, hr'⟩, ?_⟩
    have h₂ := ears_replicate _ hr'
    show prospect n (h.unsubscribe .actionPressed (.dialogue n)) = { prospect n h with ears := 0 }
    rw [← h₂]
    rfl
  focusStart h hl := by
    obtain ⟨s, hs, hsound⟩ := hl.screen
    have hset := hsound.setFocus_eq (t := some startButton) nofun
    refine keeps_modifyView hl hs (hsound.setFocus (t := some startButton) nofun) ?_ fun p hp => ?_
    · rw [hset]
    · unfold Prospect.atStart
      rw [hp, hset]
      rfl

end VisualNovel.House
