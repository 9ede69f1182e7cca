import VisualNovel.Proofs.House.Screens
/-!
# How a screen hears of an action

The dialogue of a screen hears of an action first, if it runs; then the game does, then the screen,
if it was entered. What the two make of it that the player confirms is a parameter (`Hears`); the
other actions leave the dialogue alone. So an action is heard to the end (`press_hears`).

Whatever an edition asks for, the screen and the house around it proceed (`hears_free`).
-/
namespace VisualNovel

theorem View.moveFocus_startPanel (delta : Int) (v : View) :
    (v.moveFocus delta).1.startPanel = v.startPanel := by
  unfold moveFocus
  split <;> rfl

theorem View.showDialogue_startPanel (v : View) : v.showDialogue.startPanel = false := by
  unfold showDialogue
  dsimp only
  split <;> rfl

namespace House
variable {τ : Type} {X : Regime τ} {e : Edition τ} {q : List (SceneChange SceneId)} {busy : Bool}
  {n : Nat} {s s' : Screen τ} {h h' : House τ}

/-- What a screen does while an action is being delivered brings about something. -/
def Brings (X : Regime τ) (e : Edition τ) (q : List (SceneChange SceneId)) (n : Nat) (s : Screen τ)
    (h : House τ) (r : Attempt (House τ) HouseError) (P : Screen τ → List Notice → Prop) : Prop :=
  ∃ s' h' err ns, r = (h', err) ∧ Proceeds X e q true n s h s' h' ns ∧ P s' ns

variable {P Q : Screen τ → List Notice → Prop} {r : Attempt (House τ) HouseError}

theorem Brings.mono (hr : Brings X e q n s h r P) (hPQ : ∀ s' ns, P s' ns → Q s' ns) :
    Brings X e q n s h r Q := by
  obtain ⟨s', h', err, ns, heq, hproceeds, hP⟩ := hr
  exact ⟨s', h', err, ns, heq, hproceeds, hPQ s' ns hP⟩

theorem Brings.refl (ho : Onscreen X e q true n s h) (err : Option HouseError) (hP : P s []) :
    Brings X e q n s h (h, err) P := ⟨s, h, err, [], rfl, .refl ho, hP⟩

/-- What was told aside before makes no difference. -/
theorem Brings.after {s₁ : Screen τ} {h₁ : House τ} (hp : Proceeds X e q true n s h s₁ h₁ [])
    (hr : Brings X e q n s₁ h₁ r P) : Brings X e q n s h r P := by
  obtain ⟨s', h', err, ns, heq, hproceeds, hP⟩ := hr
  exact ⟨s', h', err, ns, heq, hp.trans hproceeds, hP⟩

/-- A command is obeyed where the dialogue runs or may begin. -/
theorem Onscreen.heeds (ho : Onscreen X e q busy n s h) {pub : Publisher τ}
    {f : Wiring τ (House τ) → Dialogue τ Unit (House τ) → Dialogue τ Unit (House τ) × Turn}
    {d' : Dialogue τ Unit (House τ)} {t : Turn}
    (hf : f (wiring pub n e) (s.dialogue.within h) = (d', t))
    (hd : (ward busy n (h.setting n) h.news).Obeys (s.dialogue.within h) d' t)
    (hx : X.Takes busy n d')
    (hrun : s.entered = true ∧ s.ended = false ∧ s.view.startPanel = false) :
    ∃ s' h', h.command pub n f = (h', turnError t) ∧ Became X e q busy n s h d' s' h' ∧
      (t ≠ .ended → s'.ended = s.ended) :=
  ho.command hf (ho.settles hd hx) (fun _ => hrun) hd.off

variable [Clock τ]

/-! ## The screen hears -/

/-- The story of a screen is loaded and begins, or it is told why not. -/
theorem startStory_brings (ho : Onscreen X e q true n s h) (hentered : s.entered = true)
    (hstays : P s []) (hbegin : ∀ {h : House τ}, Onscreen X e q true n s h → ∀ script text,
      Brings X e q n s h (h.beginStory queue n script text) P) :
    Brings X e q n s h (h.startStory queue n) P := by
  unfold startStory
  simp only [ho.screen]
  match s.edition.script.asText with
  | .error err => exact .refl ho _ hstays
  | .ok script =>
    simp only [startFrom]
    have hloaded : Proceeds X e q true n s h s
        (h.reportAll (Story.loadContent h.disk (.ofString script)).2) [] :=
      ho.told (.of_eq rfl rfl rfl rfl rfl rfl) nofun
    have hreported (entry : Log.Entry) := hloaded.trans
      (hloaded.onscreen.told (.report _ entry) nofun)
    match (Story.loadContent h.disk (.ofString script)).1 with
    | .error (.file err) =>
      by_cases hsystem : err.isSystem = true
      · exact ⟨s, _, _, [], if_pos hsystem, hreported _, hstays⟩
      · exact ⟨s, _, _, [], if_neg hsystem, hloaded, hstays⟩
    | .error (.script err) => exact ⟨s, _, _, [], rfl, hreported _, hstays⟩
    | .error .noName => exact ⟨s, _, _, [], rfl, hreported _, hstays⟩
    | .ok text =>
      simp only [hentered, if_true]
      exact .after hloaded (hbegin hloaded.onscreen script text)

/-- The player confirms on a screen: nothing comes of it, or what has the focus is taken. -/
theorem confirm_brings (ho : Onscreen X e q true n s h)
    (hrests : s.view.startFocused = false → (s.dialogue.session.active = true →
      s.view.focusedChoice? = none) → P s [])
    (hstart : s.view.startFocused = true → Brings X e q n s h (h.startStory queue n) P)
    (hchoose : ∀ j, s.view.focusedChoice? = some j → s.dialogue.session.active = true →
      Brings X e q n s h (h.choose queue n j) P) :
    Brings X e q n s h (h.confirm queue n) P := by
  unfold confirm
  simp only [ho.screen]
  by_cases hfocused : s.view.startFocused = true
  · rw [if_pos hfocused]
    exact hstart hfocused
  · rw [if_neg hfocused]
    have hdark := Bool.eq_false_iff.2 hfocused
    match hj : s.view.focusedChoice? with
    | none => exact .refl ho none (hrests hdark fun _ => hj)
    | some j =>
      by_cases hact : s.dialogue.session.active = true
      · simp only [hact, if_true]
        exact hchoose j hj hact
      · simp only [hact]
        exact .refl ho none (hrests hdark fun hon => absurd hon hact)

/-! ## An action is heard -/

/-- What the listener makes of an event is what comes of it. -/
theorem attend_proceeds (ho : Onscreen X e q true n s h) (note : Notice) (l : Entry Subscriber)
    (hl : ∀ {h}, Onscreen X e q true n s h → Brings X e q n s h (h.listen l.handler note) P) :
    ∃ s' ns, Proceeds X e q true n s h s' (exchange.attend note h l) ns ∧ P s' ns := by
  have hserved : Proceeds X e q true n s h s
      { h with bus := { h.bus with serving := some l.handler } } [] :=
    ho.told ⟨rfl, rfl, rfl, rfl, fun _ => rfl, rfl, (List.append_nil _).symm, fun _ hq => hq,
      fun _ hq => Or.inl hq⟩ nofun
  obtain ⟨s', h', err, ns, hlisten, hproceeds, hP⟩ := hl hserved.onscreen
  refine ⟨s', ns, ?_, hP⟩
  rw [attend_eq]
  simp only [hlisten]
  cases err with
  | none => exact hserved.trans hproceeds
  | some err =>
    have hreport := hproceeds.onscreen.told (.report h' note.topic.failure) nofun
    have htotal := (hserved.trans hproceeds).trans hreport
    rw [List.append_nil] at htotal
    exact htotal

/-- What the dialogue of a screen (`D`) and then the screen itself (`C`) make of it that the player
confirms; and wherever the focus is moved, what is asked of the screen holds. -/
structure Hears (X : Regime τ) (e : Edition τ) (q : List (SceneChange SceneId)) (n : Nat)
    (D C : Screen τ → Screen τ → List Notice → Prop) : Prop where
  dialogue : ∀ {s h}, Onscreen X e q true n s h → s.dialogue.session.active = true →
    Brings X e q n s h (h.command queue n fun w d => d.advance w) (D s)
  screen : ∀ {s h}, Onscreen X e q true n s h → s.entered = true →
    Brings X e q n s h (h.confirm queue n) (C s)
  move : ∀ {s h} (delta : Int), Onscreen X e q true n s h →
    X.holds true n { s with view := (s.view.moveFocus delta).1 }
      (h.modifyView n fun v => (v.moveFocus delta).1)

/-- What one of the two made of an action: nothing, unless it was there and the player confirmed. -/
def Made (on : Prop) (D : Screen τ → Screen τ → List Notice → Prop) (a : Action) (s s' : Screen τ)
    (ns : List Notice) : Prop := a = .confirm → (on → D s s' ns) ∧ (¬on → s' = s ∧ ns = [])

variable {D C : Screen τ → Screen τ → List Notice → Prop}

/-- An action is heard by the dialogue, if it runs. -/
theorem dialogue_attends (hH : Hears X e q n D C) (ho : Onscreen X e q true n s h) (a : Action) :
    ∃ s' ns, Proceeds X e q true n s h s'
        (((if s.dialogue.session.active then [n] else []).map dialogueEntry).foldl
          (exchange.attend (Notice.actionPressed a)) h) ns ∧
      Made (s.dialogue.session.active = true) D a s s' ns := by
  by_cases hact : s.dialogue.session.active = true
  · rw [if_pos hact]
    refine attend_proceeds ho (Notice.actionPressed a) (dialogueEntry n)
      (P := Made (s.dialogue.session.active = true) D a s) fun ho => ?_
    cases a with
    | confirm =>
      exact (hH.dialogue ho hact).mono fun s' ns hD _ => ⟨fun _ => hD, fun hoff => absurd hact hoff⟩
    | menuUp | menuDown | quit => exact .refl ho none nofun
  · rw [if_neg hact]
    exact ⟨s, [], .refl ho, fun _ => ⟨fun hon => absurd hon hact, fun _ => ⟨rfl, rfl⟩⟩⟩

/-- The game hears of an action; no screen minds. -/
theorem game_attends (ho : Onscreen X e q true n s h) (a : Action) :
    Proceeds X e q true n s h s (exchange.attend (Notice.actionPressed a) h gameEntry) [] := by
  obtain ⟨s', ns, hproceeds, rfl, rfl⟩ := attend_proceeds ho (Notice.actionPressed a) gameEntry
    (P := fun s' ns => s' = s ∧ ns = []) fun {h} ho => by
      cases a with
      | quit =>
        have hr := ho.ready
        exact ⟨s, { h with running := false }, none, [], rfl,
          ⟨ho.relay ho.screen ho.pending ⟨hr.tuned, hr.delivering, hr.idle, hr.waits⟩,
            ⟨⟨rfl, fun _ _ => rfl, rfl, fun _ => rfl⟩, rfl⟩, rfl, (List.append_nil _).symm⟩, rfl, rfl⟩
      | confirm | menuUp | menuDown => exact .refl ho none ⟨rfl, rfl⟩
  exact hproceeds

/-- To move the focus makes no difference to the dialogue. -/
theorem move_brings (hH : Hears X e q n D C) (ho : Onscreen X e q true n s h) (delta : Int)
    (hP : ∀ s', P s' []) :
    Brings X e q n s h (h.modifyView n fun v => (v.moveFocus delta).1, none) P :=
  ⟨_, _, none, [], rfl, ho.view (fun hstart => ho.atStart
    ((View.moveFocus_startPanel delta s.view).symm.trans hstart)) (hH.move delta ho), hP _⟩

/-- An action is heard by the screen, if it was entered. -/
theorem screen_attends (hH : Hears X e q n D C) (ho : Onscreen X e q true n s h) (a : Action) :
    ∃ s' ns, Proceeds X e q true n s h s'
        (((if s.entered then [n] else []).map screenEntry).foldl
          (exchange.attend (Notice.actionPressed a)) h) ns ∧
      Made (s.entered = true) C a s s' ns := by
  by_cases hentered : s.entered = true
  · rw [if_pos hentered]
    refine attend_proceeds ho (Notice.actionPressed a) (screenEntry n)
      (P := Made (s.entered = true) C a s) fun ho => ?_
    cases a with
    | confirm =>
      exact (hH.screen ho hentered).mono fun s' ns hC _ =>
        ⟨fun _ => hC, fun hoff => absurd hentered hoff⟩
    | menuUp => exact move_brings hH ho (-1) fun _ => nofun
    | menuDown => exact move_brings hH ho 1 fun _ => nofun
    | quit => exact .refl ho none nofun
  · rw [if_neg hentered]
    exact ⟨s, [], .refl ho, fun _ => ⟨fun hon => absurd hon hentered, fun _ => ⟨rfl, rfl⟩⟩⟩

omit [Clock τ] in
/-- Before the dialogue hears of an action it is written down. -/
theorem announced_onscreen (a : Action) (ho : Onscreen X e q false n s h) :
    Proceeds X e q true n s h s (announced a h) [] := by
  have hr := ho.ready
  refine ⟨ho.relay ho.screen ho.pending ⟨hr.tuned.same fun _ => rfl, rfl, nofun, hr.waits⟩,
    ⟨⟨rfl, fun _ _ => rfl, rfl, id⟩, rfl⟩, rfl, ?_⟩
  have hqueue : h.bus.queue = [] := hr.idle rfl
  have htold : (announced a h).told = h.told ++ [Notice.actionPressed a] := by
    unfold House.told
    rw [show (announced a h).bus.queue = h.bus.queue from rfl, hqueue]
    unfold announced
    simp [HouseMark.notice?]
  unfold House.news
  rw [htold, List.filter_append]
  rfl

/-- An action is heard to the end, by the dialogue and then by the screen. -/
theorem press_hears (hH : Hears X e q n D C) (ho : Onscreen X e q false n s h) (a : Action) :
    ∃ s₁ ns₁ s₂ ns₂,
      Proceeds X e q false n s h s₂ (publish (Notice.actionPressed a) h).1 (ns₁ ++ ns₂) ∧
      Made (s.dialogue.session.active = true) D a s s₁ ns₁ ∧
      Made (s.entered = true) C a s₁ s₂ ns₂ := by
  have hbegun := announced_onscreen a ho
  obtain ⟨s₁, ns₁, hdialogue, hfirst⟩ := dialogue_attends hH hbegun.onscreen a
  have hgame := game_attends hdialogue.onscreen a
  obtain ⟨s₂, ns₂, hscreen, hlast⟩ := screen_attends hH hgame.onscreen a
  have hheard := ((hbegun.trans hdialogue).trans hgame).trans hscreen
  rw [show s₁.entered = s.entered from hdialogue.entered] at hscreen hheard hlast
  obtain ⟨b, ms, hpublish, hr, htold⟩ := publish_action a ho.ready
    (List.foldl_append.trans List.foldl_cons) hscreen.onscreen.ready
  rw [hpublish]
  refine ⟨s₁, ns₁, s₂, ns₂,
    ⟨hscreen.onscreen.relay hscreen.onscreen.screen hscreen.onscreen.pending hr,
      ⟨⟨hheard.around.stack, hheard.around.others, hheard.around.count, hheard.around.stopped⟩,
        hheard.around.services⟩, hheard.entered, ?_⟩, hfirst, hlast⟩
  have hnews := hheard.news
  unfold House.news at hnews ⊢
  rw [htold, hnews]
  simp

/-! ## Whatever an edition asks for -/

omit [Clock τ] in
/-- Something came of a command. -/
theorem Became.brings {d' : Dialogue τ Unit (House τ)} {err : Option HouseError}
    (hb : Became .free e q true n s h d' s' h') :
    Brings .free e q n s h (h', err) fun _ _ => True := by
  obtain ⟨ns, hproceeds⟩ := hb.moves
  exact ⟨s', h', err, ns, rfl, hproceeds, trivial⟩

/-- A text that is a story does not lead back to the start panel. -/
theorem beginStory_readable {script text : String} {t : Turn}
    (hcommand : (h.modifyView n View.showDialogue).command queue n
      (fun w d => d.begin w (.str text)) = (h', turnError t)) (ht : ∀ err, t ≠ .unreadable err) :
    h.beginStory queue n script text = (h', turnError t) := by
  unfold beginStory
  rw [hcommand]
  cases t with
  | unreadable err => exact absurd rfl (ht err)
  | done | ended | refused | failed => rfl

/-- A story begins on a screen of any edition, or the start panel is shown again. -/
theorem beginStory_free (ho : Onscreen .free e q true n s h) (hentered : s.entered = true)
    (hpanel : s.view.startPanel = true) (script text : String) :
    Brings .free e q n s h (h.beginStory queue n script text) fun _ _ => True := by
  obtain ⟨hact, hended⟩ := ho.atStart hpanel
  have hview := ho.view (f := View.showDialogue) (fun _ => ⟨hact, hended⟩) trivial
  have hrun : s.entered = true ∧ s.ended = false ∧ s.view.showDialogue.startPanel = false :=
    ⟨hentered, hended, View.showDialogue_startPanel s.view⟩
  have hkeeps := hview.onscreen.keeps
  rw [show ({ s with view := s.view.showDialogue } : Screen τ).dialogue.session.active = false
    from hact] at hkeeps
  obtain ⟨d', t, hbegin⟩ : ∃ d' t,
      (s.dialogue.within (h.modifyView n View.showDialogue)).begin (wiring queue n e) (.str text) =
        (d', t) := ⟨_, _, rfl⟩
  have hobeys := Dialogue.begin_obeys (wiring_holds queue_tells e) (.str text) hkeeps hact
  rw [show ({ s with view := s.view.showDialogue } : Screen τ).dialogue = s.dialogue from rfl,
    hbegin] at hobeys
  rcases hobeys with ⟨err, hsame⟩ | hobeys
  · -- Nothing has begun, so the screen may show the start panel again.
    cases hsame
    obtain ⟨s₁, h₁, hcommand, hb, hended₁⟩ := hview.onscreen.command
      (f := fun w d => d.begin w (.str text)) hbegin
      ⟨hview.onscreen.keeps, hview.onscreen.rest, fun _ _ => trivial⟩ (fun _ => hrun) nofun
    obtain ⟨ns, hproceeds⟩ := hb.moves
    unfold beginStory
    rw [hcommand]
    by_cases hrefusal : err.isRefusal = true
    · have hreport := hproceeds.onscreen.told (.report h₁ (notBegun script err.message)) nofun
      have hoff : s₁.dialogue.session.active = false := by
        rw [hb.dialogue]
        exact hact
      obtain ⟨s₂, err', hstart, hshown, hbecame, -⟩ := hreport.onscreen.showStart
        (Regime.free_rules e fun _ => True) queue_tells hoff ((hended₁ nofun).trans hended)
      obtain ⟨ns', hproceeds'⟩ := hbecame.moves
      refine ⟨s₂, _, err', _, ?_,
        (((hview.trans hproceeds).trans hreport).trans hshown).trans hproceeds', trivial⟩
      simp only [turnError, hrefusal, if_true]
      exact hstart
    · refine ⟨s₁, h₁, some (.format err), _, ?_, hview.trans hproceeds, trivial⟩
      simp only [turnError, hrefusal]
      rfl
  · obtain ⟨s', h', hcommand, hb, -⟩ := hview.onscreen.heeds (f := fun w d => d.begin w (.str text))
      hbegin hobeys (fun _ _ => trivial) hrun
    rw [beginStory_readable hcommand hobeys.readable]
    exact .after hview hb.brings

/-- On a screen of any edition an action is heard. -/
theorem hears_free (e : Edition τ) (q : List (SceneChange SceneId)) (n : Nat) :
    Hears .free e q n (fun _ _ _ => True) (fun _ _ _ => True) where
  dialogue {s h} ho hact := by
    obtain ⟨s', h', hcommand, hb, -⟩ := ho.heeds (f := fun w d => d.advance w) rfl
      (Dialogue.advance_obeys (wiring_holds queue_tells e) ho.keeps) (fun _ _ => trivial)
      (ho.running hact)
    rw [hcommand]
    exact hb.brings
  screen {s h} ho hentered :=
    confirm_brings ho (fun _ _ => trivial)
      (fun hfocused => startStory_brings ho hentered trivial fun ho => beginStory_free ho hentered
        (Bool.and_eq_true_iff.1 hfocused).1)
      fun j _ hact => by
        obtain ⟨s', h', hcommand, hb, -⟩ := ho.heeds (f := fun w d => d.choose w j) rfl
          (Dialogue.choose_obeys (wiring_holds queue_tells e) j ho.keeps) (fun _ _ => trivial)
          (ho.running hact)
        unfold House.choose
        simp only [ho.screen, Option.any_some, hentered, if_true, hcommand]
        exact hb.brings
  move _ _ := trivial

end House
end VisualNovel
