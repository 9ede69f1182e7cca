import VisualNovel.Proofs.House.Ward
/-!
# A screen that is shown

What holds of a screen on the stack between two steps (`Onscreen`): its dialogue listens to the player
exactly while it runs; while it runs the start panel is not shown; and the screen is to be replaced
exactly when the end of its story was made known. More may be asked of it (`Regime`). A command leaves
such a screen behind if it leaves a dialogue behind that may be put back (`Onscreen.command`).
-/
namespace VisualNovel.House
variable {τ : Type}

/-- The other screens and the stack stay as they are, and a game that was to end still is. -/
structure Beside (n : Nat) (h h' : House τ) : Prop where
  stack : h'.scenes.stack = h.scenes.stack
  others : ∀ m, m ≠ n → h'.screen? m = h.screen? m
  count : h'.screens.length = h.screens.length
  stopped : h.running = false → h'.running = false

/-- Whatever is around a screen stays as it is, but for what is asked of the stack. -/
structure Around (n : Nat) (h h' : House τ) : Prop extends Beside n h h' where
  services : h'.services = h.services

variable {n : Nat} {h h' h'' : House τ}

theorem Beside.refl (n : Nat) (h : House τ) : Beside n h h := ⟨rfl, fun _ _ => rfl, rfl, id⟩

theorem Beside.trans (h₁ : Beside n h h') (h₂ : Beside n h' h'') : Beside n h h'' where
  stack := h₂.stack.trans h₁.stack
  others m hm := (h₂.others m hm).trans (h₁.others m hm)
  count := h₂.count.trans h₁.count
  stopped := h₂.stopped ∘ h₁.stopped

theorem beside_modifyScreen (n : Nat) (f : Screen τ → Screen τ) (h : House τ) :
    Beside n h (h.modifyScreen n f) where
  stack := rfl
  others m hm := by rw [screen?_modifyScreen, if_neg (Ne.symm hm)]
  count := List.length_modify ..
  stopped := id

theorem Around.refl (n : Nat) (h : House τ) : Around n h h := ⟨.refl n h, rfl⟩

theorem Around.trans (h₁ : Around n h h') (h₂ : Around n h' h'') : Around n h h'' :=
  ⟨h₁.toBeside.trans h₂.toBeside, h₂.services.trans h₁.services⟩

theorem around_of_setting (hs : h'.setting n = h.setting n) : Around n h h' where
  services := congrArg Setting.services hs
  stack := congrArg (fun B => B.scenes.stack) hs
  others m hm := by
    have hothers := congrFun (congrArg Setting.others hs) m
    simpa only [setting, if_neg hm] using hothers
  count := congrArg Setting.count hs
  stopped hoff := (congrArg Setting.running hs).trans hoff

theorem around_modifyScreen (n : Nat) (f : Screen τ → Screen τ) (h : House τ) :
    Around n h (h.modifyScreen n f) := ⟨beside_modifyScreen n f h, rfl⟩

/-- What else is asked of a screen between two steps. It lasts as long as the dialogue and the view of
the screen stay as they are, wherever the screen is. -/
structure Regime (τ : Type) where
  holds : (busy : Bool) → (n : Nat) → Screen τ → House τ → Prop
  lasts : ∀ {busy busy' n s s' h h'}, holds busy n s h → h.screen? n = some s →
    h'.screen? n = some s' → s'.dialogue = s.dialogue → s'.view = s.view →
    Ready busy' (if s.dialogue.session.active then [n] else []) (if s'.entered then [n] else []) h' →
    holds busy' n s' h'

/-- Nothing else is asked. -/
def Regime.free : Regime τ := ⟨fun _ _ _ _ => True, fun _ _ _ _ _ _ => trivial⟩

/-- A screen of an edition between two steps; `q` was asked of the stack besides. -/
structure Onscreen (X : Regime τ) (e : Edition τ) (q : List (SceneChange SceneId)) (busy : Bool)
    (n : Nat) (s : Screen τ) (h : House τ) : Prop where
  screen : h.screen? n = some s
  edition : s.edition = e
  ready : Ready busy (if s.dialogue.session.active then [n] else [])
    (if s.entered then [n] else []) h
  listed : s.dialogue.scheduler.Listed
  rest : Dialogue.AtRest s.dialogue.scheduler
  running : s.dialogue.session.active = true →
    s.entered = true ∧ s.ended = false ∧ s.view.startPanel = false
  closed : s.ended = true → s.entered = true ∧ s.view.startPanel = false
  pending : h.scenes.pending = q ++ if s.ended then [.reload] else []
  extra : X.holds busy n s h

variable {X : Regime τ} {e : Edition τ} {q : List (SceneChange SceneId)} {busy : Bool}
  {s : Screen τ}

theorem guests_setting (hs : h.screen? n = some s) :
    (h.setting n).guests n = if s.entered then [n] else [] := by
  unfold Setting.guests setting
  rw [hs]
  rfl

/-- A screen stays in its setting. -/
theorem Onscreen.keeps (ho : Onscreen X e q busy n s h) :
    (ward busy n (h.setting n) h.news).Keeps s.dialogue.session.active (s.dialogue.within h) :=
  ⟨⟨rfl, ⟨s, ho.screen⟩, by rw [guests_setting ho.screen]; exact ho.ready,
    List.prefix_refl _⟩, ho.listed⟩

/-- A screen that became another one while `ns` was told of its dialogue. -/
structure Proceeds (X : Regime τ) (e : Edition τ) (q : List (SceneChange SceneId)) (busy : Bool)
    (n : Nat) (s : Screen τ) (h : House τ) (s' : Screen τ) (h' : House τ) (ns : List Notice) :
    Prop where
  onscreen : Onscreen X e q busy n s' h'
  around : Around n h h'
  entered : s'.entered = s.entered
  news : h'.news = h.news ++ ns

section
variable {s' s'' : Screen τ} {ns ns' : List Notice}

theorem Proceeds.refl (ho : Onscreen X e q busy n s h) : Proceeds X e q busy n s h s h [] :=
  ⟨ho, .refl n h, rfl, (List.append_nil _).symm⟩

theorem Proceeds.trans (h₁ : Proceeds X e q busy n s h s' h' ns)
    (h₂ : Proceeds X e q busy n s' h' s'' h'' ns') :
    Proceeds X e q busy n s h s'' h'' (ns ++ ns') :=
  ⟨h₂.onscreen, h₁.around.trans h₂.around, h₂.entered.trans h₁.entered, by
    rw [h₂.news, h₁.news, List.append_assoc]⟩

end

/-- On a screen that was not entered no dialogue runs. -/
theorem Onscreen.idle (ho : Onscreen X e q busy n s h) (hentered : s.entered = false) :
    s.dialogue.session.active = false := by
  rw [← Bool.not_eq_true]
  intro hact
  exact absurd (hentered.symm.trans (ho.running hact).1) Bool.false_ne_true

/-- Where the start panel is shown, no dialogue runs and no story has ended. -/
theorem Onscreen.atStart (ho : Onscreen X e q busy n s h) (hpanel : s.view.startPanel = true) :
    s.dialogue.session.active = false ∧ s.ended = false := by
  constructor <;> rw [← Bool.not_eq_true] <;> intro h
  · exact absurd ((ho.running h).2.2.symm.trans hpanel) Bool.false_ne_true
  · exact absurd ((ho.closed h).2.symm.trans hpanel) Bool.false_ne_true

/-! ## Changes that are not the dialogue's -/

/-- A screen with the same listeners is as it was, whatever else is asked of the stack and whether
an event is being delivered or not. -/
theorem Onscreen.relay (ho : Onscreen X e q busy n s h) {busy' : Bool}
    {q' : List (SceneChange SceneId)} (hs : h'.screen? n = some s)
    (hpending : h'.scenes.pending = q' ++ if s.ended then [.reload] else [])
    (hr : Ready busy' (if s.dialogue.session.active then [n] else [])
      (if s.entered then [n] else []) h') : Onscreen X e q' busy' n s h' :=
  ⟨hs, ho.edition, hr, ho.listed, ho.rest, ho.running, ho.closed, hpending,
    X.lasts ho.extra ho.screen hs rfl rfl hr⟩

/-- What is told makes no difference to a screen. -/
theorem Onscreen.spreads (ho : Onscreen X e q busy n s h) {ns : List Notice}
    (hs : Spreads ns h h') (hns : ∀ q ∈ ns, q.topic ≠ .actionPressed) :
    Onscreen X e q busy n s h' :=
  ho.relay (by unfold screen?; rw [hs.screens]; exact ho.screen) (by rw [hs.scenes, ho.pending])
    (ho.ready.spreads hs hns)

theorem Onscreen.told (ho : Onscreen X e q busy n s h) {ns : List Notice} (hs : Spreads ns h h')
    (hns : ∀ q ∈ ns, q.topic.IsAside) : Proceeds X e q busy n s h s h' [] := by
  refine ⟨ho.spreads hs fun q hq => (hns q hq).2, around_of_setting (hs.setting n), rfl, ?_⟩
  rw [hs.news_of_aside hns, List.append_nil]

/-- Where nothing is told, nothing is told of dialogues. -/
theorem Onscreen.quiet (ho : Onscreen X e q busy n s h) (hs : Spreads [] h h') :
    Proceeds X e q busy n s h s h' [] := ho.told hs (List.forall_mem_nil _)

/-- The view of a screen may be changed, as long as it shows no start panel while the dialogue runs
or the story has ended. -/
theorem Onscreen.view (ho : Onscreen X e q busy n s h) {f : View → View}
    (hstart : (f s.view).startPanel = true → s.dialogue.session.active = false ∧ s.ended = false)
    (hextra : X.holds busy n { s with view := f s.view } (h.modifyView n f)) :
    Proceeds X e q busy n s h { s with view := f s.view } (h.modifyView n f) [] := by
  have hr := ho.ready
  refine ⟨⟨screen?_modifyScreen_self ho.screen _, ho.edition,
    ⟨hr.tuned, hr.delivering, hr.idle, hr.waits⟩, ho.listed, ho.rest, fun hact => ?_,
    fun hended => ?_, ho.pending, hextra⟩, around_modifyScreen .., rfl, (List.append_nil _).symm⟩
  · refine ⟨(ho.running hact).1, (ho.running hact).2.1, ?_⟩
    rw [← Bool.not_eq_true]
    intro hpanel
    rw [(hstart hpanel).1] at hact
    cases hact
  · refine ⟨(ho.closed hended).1, ?_⟩
    rw [← Bool.not_eq_true]
    intro hpanel
    exact absurd ((hstart hpanel).2.symm.trans hended) Bool.false_ne_true

/-! ## Commands -/

/-- When a dialogue is put back, what else is asked of its screen holds. -/
def Regime.Takes (X : Regime τ) (busy : Bool) (n : Nat) (d : Dialogue τ Unit (House τ)) : Prop :=
  ∀ s, (restore n d).screen? n = some s → X.holds busy n s (restore n d)

/-- A dialogue that may be put back into the house around its screen. -/
structure Regime.Settles (X : Regime τ) (busy : Bool) (n : Nat) (h : House τ)
    (d : Dialogue τ Unit (House τ)) : Prop where
  keeps : (ward busy n (h.setting n) h.news).Keeps d.session.active d
  rest : Dialogue.AtRest d.scheduler
  takes : X.Takes busy n d

/-- What a command leaves behind may be put back. -/
theorem Onscreen.settles (ho : Onscreen X e q busy n s h) {d' : Dialogue τ Unit (House τ)}
    {t : Turn} (hd : (ward busy n (h.setting n) h.news).Obeys (s.dialogue.within h) d' t)
    (hx : X.Takes busy n d') : X.Settles busy n h d' :=
  ⟨hd.toKeeps, Dialogue.AtRest.grows ho.rest hd.grows, hx⟩

/-- What a screen has become in which the dialogue did something. -/
structure Became (X : Regime τ) (e : Edition τ) (q : List (SceneChange SceneId)) (busy : Bool)
    (n : Nat) (s : Screen τ) (h : House τ) (d' : Dialogue τ Unit (House τ)) (s' : Screen τ)
    (h' : House τ) : Prop where
  onscreen : Onscreen X e q busy n s' h'
  dialogue : s'.dialogue = d'.alone
  around : Around n h h'
  entered : s'.entered = s.entered
  startPanel : s'.view.startPanel = s.view.startPanel
  told : h'.told = d'.outside.told
  news : h.news <+: h'.news
  view : (d'.outside.screen? n).map (·.view) = some s'.view

variable {d' : Dialogue τ Unit (House τ)} {pub : Publisher τ}

/-- A dialogue is put back into the house. -/
theorem Onscreen.restore (ho : Onscreen X e q busy n s h) (hd : X.Settles busy n h d')
    (hrun : d'.session.active = true → s.entered = true ∧ s.ended = false ∧
      s.view.startPanel = false) :
    ∃ s', Became X e q busy n s h d' s' (restore n d') ∧ s'.ended = s.ended := by
  obtain ⟨hsetting, ⟨s₁, hs₁⟩, hr, hnews⟩ := hd.keeps.ok
  have hstanding : standing s₁ = standing s := by
    have hown := congrArg Setting.own hsetting
    unfold setting at hown
    rw [hs₁, ho.screen] at hown
    exact Option.some.inj hown
  have hscreen : (House.restore n d').screen? n = some { s₁ with dialogue := d'.alone } :=
    screen?_modifyScreen_self hs₁ _
  have hset : (House.restore n d').setting n = h.setting n :=
    (setting_modifyScreen hs₁ rfl).trans hsetting
  have hentered : s₁.entered = s.entered := congrArg Standing.entered hstanding
  have hended : s₁.ended = s.ended := congrArg Standing.ended hstanding
  have hpanel : s₁.view.startPanel = s.view.startPanel := congrArg Standing.startPanel hstanding
  rw [guests_setting ho.screen, ← hentered] at hr
  refine ⟨_, ⟨⟨hscreen, (congrArg Standing.edition hstanding).trans ho.edition,
    ⟨hr.tuned, hr.delivering, hr.idle, hr.waits⟩, hd.keeps.listed, hd.rest, fun hact => ?_,
    fun hover => ?_, ?_, hd.takes _ hscreen⟩, rfl, around_of_setting hset, hentered, hpanel, rfl,
    hnews, by rw [hs₁]; rfl⟩, hended⟩
  · rw [hentered, hended, hpanel]
    exact hrun hact
  · rw [hentered, hpanel]
    exact ho.closed (hended.symm.trans hover)
  · rw [show (House.restore n d').scenes = h.scenes from congrArg Setting.scenes hset, ho.pending]
    rw [hended]

/-- The end of the story is made known. -/
theorem Onscreen.storyEnded (ho : Onscreen X e q busy n s h)
    (hact : s.dialogue.session.active = false) (hentered : s.entered = true)
    (hended : s.ended = false) (hpanel : s.view.startPanel = false) :
    Onscreen X e q busy n { s with ended := true } (h.storyEnded n) ∧
      Around n h (h.storyEnded n) ∧ (h.storyEnded n).told = h.told := by
  have heq : h.storyEnded n =
      { h.modifyScreen n fun s => { s with ended := true } with
        scenes := h.scenes.ask .reload } := by
    unfold House.storyEnded
    rw [ho.screen]
    simp only [hended, Bool.false_eq_true, if_false]
    rfl
  have hscreen : (h.storyEnded n).screen? n = some { s with ended := true } := by
    rw [heq]
    exact screen?_modifyScreen_self ho.screen _
  have hr : Ready busy (if s.dialogue.session.active then [n] else [])
      (if s.entered then [n] else []) (h.storyEnded n) := by
    rw [heq]
    exact ⟨ho.ready.tuned, ho.ready.delivering, ho.ready.idle, ho.ready.waits⟩
  have haround := around_modifyScreen n (fun s => { s with ended := true }) h
  refine ⟨⟨hscreen, ho.edition, hr, ho.listed, ho.rest, fun hrun => ?_,
    fun _ => ⟨hentered, hpanel⟩, ?_, X.lasts ho.extra ho.screen hscreen rfl rfl hr⟩, ?_, ?_⟩
  · rw [hact] at hrun
    cases hrun
  · rw [heq]
    show h.scenes.pending ++ [.reload] = q ++ [.reload]
    rw [ho.pending, hended]
    exact congrArg (· ++ [SceneChange.reload]) (List.append_nil q)
  · rw [heq]
    exact ⟨⟨rfl, haround.others, haround.count, id⟩, rfl⟩
  · rw [heq]
    rfl

/-- Why a command to the dialogue of a screen broke off. -/
def turnError : Turn → Option HouseError
  | .done | .ended => none
  | .refused e => some (.play e)
  | .unreadable e => some (.format e)
  | .failed e => some (.fault e)

/-- After a command that leaves a dialogue that may be put back the screen is as it should be. -/
theorem Onscreen.command (ho : Onscreen X e q busy n s h) {t : Turn}
    {f : Wiring τ (House τ) → Dialogue τ Unit (House τ) → Dialogue τ Unit (House τ) × Turn}
    (hf : f (wiring pub n e) (s.dialogue.within h) = (d', t)) (hd : X.Settles busy n h d')
    (hrun : d'.session.active = true ∨ t = .ended → s.entered = true ∧ s.ended = false ∧
      s.view.startPanel = false) (hoff : t = .ended → d'.session.active = false) :
    ∃ s' h', h.command pub n f = (h', turnError t) ∧ Became X e q busy n s h d' s' h' ∧
      (t ≠ .ended → s'.ended = s.ended) := by
  obtain ⟨s', hb, hended⟩ := ho.restore hd fun hact => hrun (Or.inl hact)
  have hconverse : h.converse pub n .done f = (House.restore n d', t) := by
    unfold converse
    rw [ho.screen]
    simp only [ho.edition, hf]
  unfold House.command
  rw [hconverse]
  cases t with
  | done | refused | unreadable | failed => exact ⟨s', _, rfl, hb, fun _ => hended⟩
  | ended =>
    obtain ⟨hentered, hnot, hpanel⟩ := hrun (Or.inr rfl)
    have hact : s'.dialogue.session.active = false := by
      rw [hb.dialogue]
      exact hoff rfl
    obtain ⟨ho', haround, htold⟩ := hb.onscreen.storyEnded hact
      (hb.entered.trans hentered) (hended.trans hnot) (hb.startPanel.trans hpanel)
    have hnews : h.news <+: ((House.restore n d').storyEnded n).news := by
      unfold House.news
      rw [htold]
      exact hb.news
    exact ⟨_, _, rfl, ⟨ho', hb.dialogue, hb.around.trans haround, hb.entered, hb.startPanel,
      htold.trans hb.told, hnews, hb.view⟩, fun hne => absurd rfl hne⟩

/-- After something that leaves a dialogue that may be put back, even if it broke off, the screen is
as it should be. -/
theorem Onscreen.tend (ho : Onscreen X e q busy n s h) {err : Option Fault}
    {f : Wiring τ (House τ) → Dialogue τ Unit (House τ) →
      Attempt (Dialogue τ Unit (House τ)) Fault}
    (hf : f (wiring pub n e) (s.dialogue.within h) = (d', err)) (hd : X.Settles busy n h d')
    (hrun : d'.session.active = true → s.entered = true ∧ s.ended = false ∧
      s.view.startPanel = false) :
    ∃ s', h.tend pub n f = (House.restore n d', err.map HouseError.fault) ∧
      Became X e q busy n s h d' s' (House.restore n d') ∧ s'.ended = s.ended := by
  obtain ⟨s', hb, hended⟩ := ho.restore hd hrun
  refine ⟨s', ?_, hb, hended⟩
  unfold House.tend converse
  rw [ho.screen]
  simp only [ho.edition, hf]
  rfl

/-- Something was told of the dialogue, whatever it did. -/
theorem Became.moves {s' : Screen τ} (hb : Became X e q busy n s h d' s' h') :
    ∃ ns, Proceeds X e q busy n s h s' h' ns := by
  obtain ⟨ns, hns⟩ := hb.news
  exact ⟨ns, hb.onscreen, hb.around, hb.entered, hns.symm⟩

/-- What comes of a dialogue's doing for its screen, and what was told of it. -/
theorem Became.proceeds {s' : Screen τ} {ns : List Notice}
    (hb : Became X e q busy n s h d' s' h') (hnews : d'.outside.news = h.news ++ ns) :
    Proceeds X e q busy n s h s' h' ns :=
  ⟨hb.onscreen, hb.around, hb.entered, by
    unfold House.news at hnews ⊢
    rw [hb.told]
    exact hnews⟩

/-! ## What a screen does unasked -/

variable [Clock τ]

/-- A screen of an edition that was not entered yet. -/
def freshScreen (e : Edition τ) (h : House τ) : Screen τ where
  edition := e
  dialogue := .start ()
  view := {
    width := .int h.size.width, height := .int h.size.height, slots := e.slots, title := e.title }
  gallery := { portraits := ⟨.here, []⟩, splashes := ⟨.here, []⟩ }
  painter := { surface := "screen" }

/-- What is asked of the screens of an edition holds of a fresh one, and it lasts when the start panel
is shown and when time passes in a step. -/
structure Regime.Rules (X : Regime τ) (e : Edition τ) (step : τ → Prop) : Prop where
  fresh : ∀ {h : House τ}, Ready false [] [] h → X.holds false h.screens.length (freshScreen e h)
    { h with screens := h.screens ++ [freshScreen e h] }
  panel : ∀ {q busy n s} {h : House τ}, Onscreen X e q busy n s h →
    X.holds busy n { s with view := s.view.showStart } (h.modifyView n View.showStart)
  start : ∀ {pub q busy n s} {h : House τ}, Tells busy pub → Onscreen X e q busy n s h →
    X.Takes busy n ((s.dialogue.within h).startStartFocus (wiring pub n e)).1
  pass : ∀ {q n s dt} {h : House τ}, step dt → Onscreen X e q false n s h →
    X.Takes false n ((s.dialogue.within h).update (wiring publish n e) dt).1

theorem Regime.free_rules (e : Edition τ) (step : τ → Prop) : Regime.free.Rules e step :=
  ⟨fun _ => trivial, fun _ => trivial, fun _ _ _ _ => trivial, fun _ _ _ _ => trivial⟩

variable {step : τ → Prop}

/-- A screen on which no dialogue runs may show the start panel; its button gets the focus soon. -/
theorem Onscreen.showStart (hX : X.Rules e step) (hpub : Tells busy pub)
    (ho : Onscreen X e q busy n s h) (hact : s.dialogue.session.active = false)
    (hended : s.ended = false) :
    let d' := ((s.dialogue.within (h.modifyView n View.showStart)).startStartFocus
      (wiring pub n e)).1
    ∃ s' err, h.showStart pub n = (House.restore n d', err) ∧
      Proceeds X e q busy n s h { s with view := s.view.showStart }
        (h.modifyView n View.showStart) [] ∧
      Became X e q busy n { s with view := s.view.showStart } (h.modifyView n View.showStart) d' s'
        (House.restore n d') ∧ s'.ended = false := by
  intro d'
  have hview := ho.view (f := View.showStart) (fun _ => ⟨hact, hended⟩) (hX.panel ho)
  have hleads := Dialogue.startStartFocus_leads (wiring_holds hpub e) hview.onscreen.keeps
  have htakes := hX.start hpub hview.onscreen
  have hoff : d'.session.active = false := hleads.active.trans hact
  have hkeeps := hleads.toKeeps
  rw [show s.dialogue.session.active = d'.session.active from hact.trans hoff.symm] at hkeeps
  obtain ⟨s', htend, hb, hended'⟩ := hview.onscreen.tend (f := fun w d => d.startStartFocus w)
    (Prod.eta _).symm ⟨hkeeps, Dialogue.AtRest.grows hview.onscreen.rest hleads.grows, htakes⟩
    fun hrun => absurd (hoff.symm.trans hrun) Bool.false_ne_true
  exact ⟨s', _, htend, hview, hb, hended'.trans hended⟩

/-- Time passes for a screen. -/
theorem Onscreen.pass (hX : X.Rules e step) {dt : τ} (hdt : step dt)
    (ho : Onscreen X e q false n s h) :
    ∃ s' h' err ns, h.updateScene dt (.screen n) = (h', err) ∧
      Proceeds X e q false n s h s' h' ns := by
  obtain ⟨hkeeps, hrest, hact⟩ := Dialogue.update_warded (wiring_holds publish_tells e) ho.keeps
    ho.rest dt
  rw [show s.dialogue.session.active = _ from hact.symm] at hkeeps
  obtain ⟨s', htend, hb, -⟩ := ho.tend (f := fun w d => d.update w dt) (Prod.eta _).symm
    ⟨hkeeps, hrest, hX.pass hdt ho⟩ fun hrun => ho.running (hact.symm.trans hrun)
  obtain ⟨ns, hproceeds⟩ := hb.moves
  exact ⟨s', _, _, ns, htend, hproceeds⟩

end VisualNovel.House
