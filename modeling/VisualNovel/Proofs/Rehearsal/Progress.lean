import VisualNovel.Proofs.Dialogue.Passing
import VisualNovel.Proofs.Rehearsal.Runs
/-!
# Progress

A calm rehearsal is a chamber in which nobody looks at the panel. On the exact clock, with a delay
that is not negative and room for at least one choice, a dialogue that is running there never gets
stuck, whatever commands it was given (`Unstuck`, `dialogue_never_gets_stuck`): when it waits, the
player's signal starts the next line or ends it; every pending choice is accepted and leads on; and
a line that is under way is complete one delay after a skip was asked for.
-/
namespace VisualNovel

/-! ## Calm venues as chambers -/

namespace Venue
variable {τ ω : Type}

/-- A calm venue as a chamber in which nobody looks at the panel. -/
def chamber (V : Venue τ ω) (T : Timetable τ) : Chamber τ ω where
  ok := V.ok
  prospect o := ⟨none, (V.sight o).ears, (V.sight o).news⟩
  slots := V.slots
  table := T
  frail := False
  named _ := True

variable {V : Venue τ ω} {T : Timetable τ}

theorem Keeps.chamber {f : Sight → Sight} {o o' : ω} (h : V.Keeps f o o') {g : Prospect → Prospect}
    (hg : ∀ p : Sight, (⟨none, (f p).ears, (f p).news⟩ : Prospect) = g ⟨none, p.ears, p.news⟩) :
    (V.chamber T).Keeps g o o' := by
  refine ⟨h.1, ?_⟩
  show (⟨none, (V.sight o').ears, (V.sight o').news⟩ : Prospect) = _
  rw [h.2]
  exact hg _

variable [Clock τ] {w : Wiring τ ω}

/-- A wiring that suits a calm venue and attends it fits the chamber. -/
theorem Suits.fits (hw : V.Suits w) (ha : V.Attends w) (hcalm : V.calm)
    (hT : T.Runs w.manner.interval) : (V.chamber T).Fits w where
  runs := hT
  slots := hw.slots
  sound := trivial
  texts _ := trivial
  perform c o ho hc := by
    obtain ⟨o', hp, hk⟩ := hw.perform c o ho fun cs hcs => by
      subst hcs
      exact hc
    refine ⟨o', none, hp, hk.chamber fun p => ?_, Or.inl rfl⟩
    rw [Sight.after_eq]
    rfl
  report e o ho := (hw.report e o ho).chamber fun _ => rfl
  publish n d hn ho := by
    obtain ⟨o', hp, hk⟩ := ha.calm hcalm n d hn ho
    exact ⟨o', hp, hk.chamber fun _ => rfl⟩
  listen o ho := by
    obtain ⟨o', hl, hk⟩ := hw.listen o ho
    exact ⟨o', hl, hk.chamber fun _ => rfl⟩
  unlisten o ho := (hw.unlisten o ho).chamber fun _ => rfl
  focusStart o ho := (hw.focusStart o ho).chamber fun _ => rfl

end Venue

/-! ## Orders -/

/-- Whether every time by which an order advances the clock is a step of a timetable. -/
def Order.Steps (T : Timetable τ) : Order τ → Prop
  | .update dt _ => T.step dt
  | _ => True

namespace Rehearsal
variable {τ : Type} [Clock τ] {V : Venue τ (Stand τ)} {T : Timetable τ} {w : Wiring τ (Stand τ)}
  {d : Rehearsal τ}

theorem beginStory_kept (hw : (V.chamber T).Fits w) (m : Material) (h : (V.chamber T).Rests d) :
    (V.chamber T).Rests (beginStory w m d).1 := by
  unfold beginStory
  match m with
  | .content c =>
    obtain ⟨d', t, he, hl, -⟩ := Dialogue.begin_spec hw h.toKept c
    simp only [he]
    exact hl.rests h
  | .script (.str text) =>
    obtain ⟨o, hreports, hk⟩ := hw.reportAll_eq (Story.compile text).log h.ok
    have hrest : (V.chamber T).Rests { d with outside := o } := ⟨h.toKept.keeps hk, h.rest⟩
    simp only [hreports]
    match (Story.compile text).result with
    | .error e => exact hrest
    | .ok g =>
      obtain ⟨d', t, he, hl, -⟩ := Dialogue.begin_spec hw hrest.toKept g.toJson
      simp only [he]
      exact hl.rests hrest
  | .script .null | .script (.bool _) | .script (.int _) | .script (.real _) | .script (.arr _)
  | .script (.obj _) => exact h

/-- The owner may be told of an end and begin the next story, which may end at once. -/
theorem takeTurn_kept (hw : (V.chamber T).Fits w) (hV : Owned V) (fuel : Nat) (t : Turn)
    (h : (V.chamber T).Rests d) : (V.chamber T).Rests (takeTurn w fuel (d, t)).1 := by
  -- By induction on the stories that may still be begun: each of them may end as it begins.
  induction fuel generalizing d t with
  | zero =>
    cases t with
    | ended =>
      cases hn : d.outside.noticesEnd with
      | false =>
        rw [takeTurn_untold hn]
        exact h
      | true =>
        rw [takeTurn_told hn (Or.inl rfl)]
        exact ⟨h.toKept.keeps ((hV.told _ h.ok).chamber fun _ => rfl), h.rest⟩
    | done | refused | unreadable | failed => exact h
  | succ fuel ih =>
    cases t with
    | ended =>
      cases hn : d.outside.noticesEnd with
      | false =>
        rw [takeTurn_untold hn]
        exact h
      | true =>
        have htold : (V.chamber T).Rests (d.withOutside (Stand.leave .ended)) :=
          ⟨h.toKept.keeps ((hV.told _ h.ok).chamber fun _ => rfl), h.rest⟩
        match hm : d.outside.encores with
        | [] =>
          rw [takeTurn_told hn (Or.inr hm)]
          exact htold
        | m :: rest =>
          have hm' : (d.outside.leave .ended).encores = m :: rest := hm
          have hbegun := beginStory_kept hw m (d := (d.withOutside (Stand.leave .ended)).withOutside
            fun s => { s with encores := rest })
            ⟨htold.toKept.keeps ((hV.encore _ m rest htold.ok hm').chamber fun _ => rfl),
              htold.rest⟩
          match he : beginStory w m ((d.withOutside (Stand.leave .ended)).withOutside
              fun s => { s with encores := rest }) with
          | (d', r) =>
            rw [he] at hbegun
            rw [takeTurn_encore hn hm he]
            cases r with
            | ok t => exact ih t hbegun
            | error e => exact hbegun
    | done | refused | unreadable | failed => exact h

theorem conclude_kept (hw : (V.chamber T).Fits w) (hV : Owned V) {t : Turn}
    (h : (V.chamber T).Rests d) : (V.chamber T).Rests (conclude w (d, t)).1 :=
  takeTurn_kept hw hV _ t h

theorem shutdown_kept (hw : (V.chamber T).Fits w) (h : (V.chamber T).Rests d) :
    (V.chamber T).Rests (d.shutdown w) := by
  obtain ⟨s, he, hos, hf, hfree⟩ := Dialogue.shutdown_spec w h.orderly h.doing.settled
  have hk := hw.unlisten d.outside h.ok
  have hsane := h.toSane.follow hos hf
  rw [he]
  refine ⟨⟨⟨hk.1, hsane.orderly, hsane.time, h.revealed⟩, nofun, ?_, nofun,
    .away rfl rfl rfl rfl hfree⟩, h.rest.follows hf⟩
  show ((V.chamber T).prospect (w.unlisten d.outside)).ears = 0
  rw [hk.2]

theorem updateTimes_kept (hw : (V.chamber T).Fits w) (h : (V.chamber T).Rests d) {dt : τ}
    (hdt : T.step dt) (times : Json) : (V.chamber T).Rests (updateTimes w dt times d).1 := by
  unfold updateTimes
  match times.count with
  | .error e => exact h
  | .ok count =>
    obtain ⟨d', e?, he, hrest, -⟩ := times_keeps (fun d h => by
      obtain ⟨d', e, he, hrest, -, hmisfit⟩ := Dialogue.update_kept hw h hdt
      exact ⟨d', e, he, hrest, hmisfit⟩) count.toNat h
    simp only [he]
    exact hrest

variable {interval : τ} {sound : Json} {publish : Publisher τ}

/-- A command leaves a dialogue behind that rests, if time advances by a step. -/
theorem command_kept (hw : (V.chamber T).Fits (wiring interval sound publish)) (hV : Owned V)
    {o : Order τ} (ho : o.isCommand) (hsteps : o.Steps T) (h : (V.chamber T).Rests d) :
    (V.chamber T).Rests (carryOut interval sound publish o d).1 := by
  unfold carryOut
  cases o with
  | begin m =>
    have hbegun := beginStory_kept hw m h
    match he : beginStory (wiring interval sound publish) m d with
    | (d', r) =>
      rw [he] at hbegun
      simp only [he]
      cases r with
      | ok t => exact conclude_kept hw hV hbegun
      | error e => exact hbegun
  | update dt times => exact updateTimes_kept hw h hsteps times
  | advance =>
    obtain ⟨d', t, he, hl, -⟩ := Dialogue.advance_spec hw h.toKept
    simp only [he]
    exact conclude_kept hw hV (hl.rests h)
  | goOn =>
    obtain ⟨d', t, he, hl, -⟩ := Dialogue.continueStory_kept hw h.toKept
    simp only [he]
    exact conclude_kept hw hV (hl.rests h)
  | choose index =>
    obtain ⟨d', t, he, hl, -⟩ := Dialogue.choose_spec hw h.toKept index
    simp only [he]
    exact conclude_kept hw hV (hl.rests h)
  | shutdown => exact shutdown_kept hw h
  | act | move => exact ho.elim

/-! ## Calm rehearsals -/

variable {n : Nat} {reading : τ → Prop} {c : Course} {s : Stand τ}

theorem calm_fits (sound : Json) (hc : Clock.Runs interval reading) (hT : T.Runs interval) :
    ((calmVenue n reading c).chamber T).Fits
      (wiring interval sound (Rehearsal.publish interval sound)) :=
  (Stand.suits hc n True _ c sound _).fits (attends interval sound) trivial hT

/-- A rehearsal that was just opened rests. -/
theorem opened_kept (hT : T.Runs interval) (h : s.IsCalm n) (hbow : c.bow = s.noticesEnd.toNat)
    (honly : s.encores ≠ [] → c.only = none) :
    ((calmVenue n reading c).chamber T).Rests (opened s) := by
  obtain ⟨s', hs', hsound, hback, hnews, hbows, hears⟩ := Stand.open_eq h.toIsFresh
  have hopened : opened s = .start s' := by
    unfold opened
    rw [hs']
  rw [hopened]
  exact ⟨⟨⟨⟨hsound, hback ▸ hushed h hbow honly⟩, ⟨List.nodup_nil, nofun, nofun⟩, hT.origin,
    Nat.le_refl _⟩, nofun, hears, nofun, .away rfl rfl rfl rfl ⟨fun _ => rfl, nofun, nofun⟩⟩, nofun⟩

/-- After any commands a calm rehearsal rests, if time advances by steps. -/
theorem rehearse_kept (sound : Json) (hc : Clock.Runs interval reading) (hT : T.Runs interval)
    (h : s.IsCalm n) {os : List (Order τ)} (hos : ∀ o ∈ os, o.isCommand ∧ o.Steps T) :
    ((calmVenue n reading ⟨none, s.noticesEnd.toNat⟩).chamber T).Rests
      (rehearse interval sound os (opened s)) := by
  refine (rehearse_keeps (A := fun _ => True) os (fun o ho d hd => ⟨?_, trivial⟩)
    (opened_kept hT h rfl fun _ => rfl)).1
  exact command_kept (calm_fits sound hc hT) calm_owned (hos o ho).1 (hos o ho).2 hd

/-! ## Going on -/

open Story (Player)

/-- After the events `ns` the next line of a story was fetched and is shown. -/
structure StartsLine (p : Player) (ns : List Notice) (d : Rehearsal τ) : Prop where
  active : d.session.active = true
  fetched : ∃ line p' log rest, p.continue? = .ok (line, p', log) ∧ d.story = some p' ∧
    d.session.line = line.text ∧
    d.outside.news = ns ++ .lineStarted line.text line.tags :: rest

/-- After the events `ns` the choices of a story are offered, for there is nothing to read. -/
structure OffersChoices (n : Nat) (p : Player) (ns : List Notice) (d : Rehearsal τ) : Prop where
  read : p.canContinue = false
  story : d.story = some p
  phase : d.session.phase = .awaitingChoice
  pending : d.session.pending = p.choices.take n
  some : d.session.pending ≠ []
  news : d.outside.news = ns ++ [.choicesShown d.session.pending]

/-- After the events `ns` the dialogue has ended, for the story has neither lines nor choices
left. -/
structure Ends (p : Player) (ns : List Notice) (d : Rehearsal τ) : Prop where
  read : p.canContinue = false
  none : p.choices = []
  active : d.session.active = false
  phase : d.session.phase = .ended
  news : d.outside.news = ns ++ [.plain .dialogueEnded]

omit [Clock τ] in
theorem calm_news (h : (calmVenue n reading c).ok d.outside) :
    ((calmVenue n reading c).chamber T).news d = d.outside.news := h.2.news

omit [Clock τ] in
/-- With room for a choice, to go on with a story starts a line, offers choices or ends the
dialogue. -/
theorem goes_on {p : Player} {ns : List Notice} {t : Turn} (hn : 1 ≤ n)
    (h : Dialogue.Goes ((calmVenue n reading c).chamber T) p ns d t)
    (hok : (calmVenue n reading c).ok d.outside) :
    t = .done ∧ StartsLine p ns d ∨ t = .done ∧ OffersChoices n p ns d ∨ t = .ended ∧ Ends p ns d := by
  cases h with
  | @reads line p' log e read shown =>
    cases shown with
    | broken frail => exact frail.elim
    | begun h =>
      refine Or.inl ⟨rfl, ?_⟩
      cases h with
      | reading story active revealing skip text news =>
        refine ⟨active, line, p', log, [], read, story, text, ?_⟩
        rw [← calm_news (T := T) hok, news]
      | completed h =>
        refine ⟨h.active, line, p', log, ?_⟩
        rw [← calm_news (T := T) hok]
        rcases h.phase with ⟨-, -, hnews⟩ | ⟨-, -, hnews⟩
        · exact ⟨[.lineRevealed line.text], read, h.story, h.line, by rw [hnews]; simp⟩
        · exact ⟨[.lineRevealed line.text, .choicesShown d.session.pending], read, h.story, h.line,
            by rw [hnews]; simp⟩
  | pauses read some paused =>
    refine Or.inr (Or.inl ⟨rfl, ?_⟩)
    have hpending : d.session.pending = p.choices.take n := paused.pending
    have hne : d.session.pending ≠ [] := by
      rw [hpending, Ne, List.take_eq_nil_iff]
      rintro (hzero | hnil)
      · omega
      · exact some hnil
    rcases paused.phase with ⟨hnil, -⟩ | ⟨-, hphase, hnews⟩
    · exact absurd hnil hne
    · exact ⟨read, paused.story, hphase, hpending, hne, by rw [← calm_news (T := T) hok, hnews]⟩
  | ends read none story active phase news =>
    exact Or.inr (Or.inr ⟨rfl, read, none, active, phase, by rw [← calm_news (T := T) hok, news]⟩)

/-! ## Never stuck -/

/-- The player's signal starts the story's next line or ends the dialogue. -/
def CanAdvance (interval : Rat) (sound : Json) (d : Rehearsal Rat) : Prop :=
  ∃ p d' t, d.story = some p ∧
    d.advance (wiring interval sound (Rehearsal.publish interval sound)) = (d', t) ∧
    (t = .done ∧ StartsLine p d.outside.news d' ∨ t = .ended ∧ Ends p d.outside.news d')

/-- With `n` slots, the pending choice in a place is accepted and leads to a line, to other choices
or to the end. -/
def CanChoose (interval : Rat) (sound : Json) (n : Nat) (d : Rehearsal Rat) (i : Nat) : Prop :=
  ∃ choice p p' log d' t, d.session.pending[i]? = some choice ∧ d.story = some p ∧
    p.choose? choice.index = .ok (p', log) ∧
    d.choose (wiring interval sound (Rehearsal.publish interval sound)) (.int i) = (d', t) ∧
    (t = .done ∧ StartsLine p' (d.outside.news ++ [.choiceMade choice]) d' ∨
      t = .done ∧ OffersChoices n p' (d.outside.news ++ [.choiceMade choice]) d' ∨
      t = .ended ∧ Ends p' (d.outside.news ++ [.choiceMade choice]) d')

/-- After the player's signal an update that takes as long as the delay completes the line, and then
choices are on offer or the dialogue waits to be advanced. -/
def CanHasten (interval : Rat) (sound : Json) (d : Rehearsal Rat) : Prop :=
  ∀ dt : Rat, interval ≤ dt → ∃ d',
    Dialogue.update (wiring interval sound (Rehearsal.publish interval sound)) dt
      (d.advance (wiring interval sound (Rehearsal.publish interval sound))).1 = (d', none) ∧
    d'.session.line = d.session.line ∧ d'.session.revealed = d.session.line.length ∧
    d'.session.revealing = false ∧ d'.session.active = true ∧
    (d'.session.phase = .awaitingChoice ∨ d'.session.phase = .awaitingAdvance)

/-- A dialogue with `n` slots for choices that can go on, whatever it is doing. -/
structure Unstuck (interval : Rat) (sound : Json) (n : Nat) (d : Rehearsal Rat) : Prop where
  waiting : d.session.revealing = false → d.session.pending = [] → CanAdvance interval sound d
  choosing : ∀ i < d.session.pending.length, CanChoose interval sound n d i
  reading : d.session.revealing = true → CanHasten interval sound d

section
variable {interval : Rat} {d : Rehearsal Rat}

theorem canAdvance (hd : 0 ≤ interval) (hn : 1 ≤ n)
    (h : ((calmVenue n (fun _ => True) c).chamber (.exact interval)).Rests d)
    (hact : d.session.active = true) (hr : d.session.revealing = false)
    (hp : d.session.pending = []) : CanAdvance interval sound d := by
  have hw := calm_fits (n := n) (c := c) sound (Clock.runs_rat interval) (Timetable.exact_runs hd)
  obtain ⟨p, d', t, hstory, he, hl, hg⟩ := Dialogue.advance_waiting hw h.toKept hact hr hp
  rw [calm_news h.ok] at hg
  refine ⟨p, d', t, hstory, he, ?_⟩
  rcases goes_on hn hg hl.kept.ok with hline | ⟨-, hoffers⟩ | hends
  · exact Or.inl hline
  · -- Choices that the story has would have been offered before.
    cases h.doing with
    | away active =>
      rw [hact] at active
      cases active
    | reading _ revealing =>
      rw [hr] at revealing
      cases revealing
    | offering _ _ _ _ some => exact absurd hp some
    | waiting _ _ _ _ phase =>
      rcases phase with ⟨-, hnil⟩ | ⟨hfrail, -⟩
      · refine absurd ?_ hoffers.some
        rw [hoffers.pending]
        unfold Dialogue.storyChoices at hnil
        rw [hstory] at hnil
        exact hnil
      · exact hfrail.elim
  · exact Or.inr hends

theorem canChoose (hd : 0 ≤ interval) (hn : 1 ≤ n)
    (h : ((calmVenue n (fun _ => True) c).chamber (.exact interval)).Rests d) {i : Nat}
    (hi : i < d.session.pending.length) : CanChoose interval sound n d i := by
  have hw := calm_fits (n := n) (c := c) sound (Clock.runs_rat interval) (Timetable.exact_runs hd)
  have hget := List.getElem?_eq_getElem hi
  obtain ⟨p, p', log, d', t, hstory, hchosen, he, hl, hg⟩ := Dialogue.choose_slot hw h.toKept hget
  rw [calm_news h.ok] at hg
  exact ⟨_, p, p', log, d', t, hget, hstory, hchosen, he, goes_on hn hg hl.kept.ok⟩

theorem canHasten (hd : 0 ≤ interval)
    (h : ((calmVenue n (fun _ => True) c).chamber (.exact interval)).Rests d)
    (hr : d.session.revealing = true) : CanHasten interval sound d := by
  intro dt hdt
  have hw := calm_fits (n := n) (c := c) sound (Clock.runs_rat interval) (Timetable.exact_runs hd)
  cases h.doing with
  | away _ revealing | offering _ revealing | waiting _ revealing =>
    rw [hr] at revealing
    cases revealing
  | reading active _ _ _ task =>
    obtain ⟨id, t, hrev⟩ := task
    obtain ⟨p, hstory⟩ := h.story active
    have hadvance : d.advance (wiring interval sound (Rehearsal.publish interval sound)) =
        (d.withSession fun s => { s with skip := true }, .done) := by
      unfold Dialogue.advance
      rw [active, hr]
      rfl
    obtain ⟨ht, rest, hl, -⟩ := Scheduler.waits?_eq_some.1 hrev.waits
    obtain ⟨_, -, hP, -⟩ := Dialogue.rests_waits h ht (Task.left?_eq_some.1 hl).2
    obtain ⟨d', he, hdone⟩ := Dialogue.update_completes hw (p := p)
      (d := d.withSession fun s => { s with skip := true }) ⟨h.toKept.skipping hr, h.rest⟩
      (show 0 ≤ dt from le_trans hd hdt) rfl rfl hr hstory hrev (Timetable.due_of_exact hP hdt)
    rw [hadvance]
    refine ⟨d', he, hdone.line, hdone.revealed, hdone.revealing, hdone.active, ?_⟩
    rcases hdone.phase with ⟨-, hphase, -⟩ | ⟨-, hphase, -⟩
    · exact Or.inr hphase
    · exact Or.inl hphase

/-- Whatever commands were given in a calm rehearsal with room for a choice, while time did not run
backwards: a dialogue that is running is not stuck. -/
theorem dialogue_never_gets_stuck (hd : 0 ≤ interval) (hn : 1 ≤ n) {s : Stand Rat}
    (hs : s.IsCalm n) {os : List (Order Rat)} (hos : ∀ o ∈ os, o.isCommand)
    (hforward : ∀ dt times, .update dt times ∈ os → 0 ≤ dt)
    (hact : (rehearse interval sound os (opened s)).session.active = true) :
    Unstuck interval sound n (rehearse interval sound os (opened s)) := by
  have hsteps : ∀ o ∈ os, o.isCommand ∧ o.Steps (Timetable.exact interval) := fun o ho =>
    ⟨hos o ho, by
      cases o with
      | update dt times => exact hforward dt times ho
      | begin | advance | goOn | choose | act | shutdown | move => trivial⟩
  have hrest := rehearse_kept sound (Clock.runs_rat interval) (Timetable.exact_runs hd) hs hsteps
  exact ⟨canAdvance hd hn hrest hact, fun i hi => canChoose hd hn hrest hi, canHasten hd hrest⟩

/-- A story is begun, read to its choice, which leads back to the line, and hurried on; it runs, and
it is not stuck. -/
theorem visit_never_gets_stuck :
    let story : Json := .obj [("nodes", .arr [.obj [("id", .str "hall"),
      ("lines", .arr [.obj [("text", .str "Hi!")]]),
      ("choices", .arr [.obj [("text", .str "Stay"), ("next", .str "hall")]])]])]
    let visit : List (Order Rat) := [.begin (.content story), .update 1 (.int 3), .choose (.int 0),
      .advance]
    let s : Stand Rat := { slots := .count 1 }
    s.IsCalm 1 ∧ (∀ o ∈ visit, o.isCommand) ∧ (∀ dt times, .update dt times ∈ visit → 0 ≤ dt) ∧
      (rehearse 1 .null visit (opened s)).session.active = true ∧
      Unstuck 1 .null 1 (rehearse 1 .null visit (opened s)) := by
  intro story visit s
  have hs : s.IsCalm 1 := by
    refine ⟨⟨rfl, rfl, rfl, fun v hv => ?_, fun k hk => ?_⟩, fun k hk => ?_⟩
    · cases hv
    · cases hk
    · cases hk
  have hvisit : ∀ o ∈ visit, o.isCommand := by simp [visit, Order.isCommand]
  have hforward : ∀ dt times, .update dt times ∈ visit → (0 : Rat) ≤ dt := by
    intro dt times hmem
    simp only [visit, List.mem_cons, Order.update.injEq, reduceCtorEq, List.not_mem_nil, or_false,
      false_or] at hmem
    rw [hmem.1]
    decide
  have hact : (rehearse 1 .null visit (opened s)).session.active = true := by
    decide +kernel
  exact ⟨hs, hvisit, hforward, hact,
    dialogue_never_gets_stuck (by decide) (by decide) hs hvisit hforward hact⟩

end

end Rehearsal
end VisualNovel
