import VisualNovel.Proofs.Rehearsal.Runs
/-!
# Endings

In a calm rehearsal the owner of the dialogue is told of every end, of at most one for each story
that was begun, and not of a shutdown. A dialogue that is not running stays as it is: nothing that
is asked of it but to begin a story changes anything (`Inert`, `endings_are_told_once`).
-/
namespace VisualNovel

/-- The call that a mark tells of. -/
def RehearsalMark.call? : RehearsalMark → Option Call
  | .call c => some c
  | _ => none

/-- Whether an order neither begins a dialogue nor breaks it off. -/
def Order.isRequest : Order τ → Prop
  | .begin _ | .shutdown | .move _ => False
  | _ => True

namespace Rehearsal
variable {τ : Type}

/-- Nothing became of a dialogue, and nothing of it was told to anybody. -/
structure Inert (d d' : Rehearsal τ) : Prop where
  session : d'.session = d.session
  story : d'.story = d.story
  table : ∀ t, d'.outside.bus.table t = d.outside.bus.table t
  calls : d'.outside.marks.filterMap RehearsalMark.call? =
    d.outside.marks.filterMap RehearsalMark.call?
  view : d'.outside.view = d.outside.view
  news : d'.outside.news = d.outside.news
  bows : d'.outside.bows = d.outside.bows

namespace Inert
variable {d d' d'' : Rehearsal τ}

theorem refl (d : Rehearsal τ) : Inert d d := ⟨rfl, rfl, fun _ => rfl, rfl, rfl, rfl, rfl⟩

theorem trans (h : Inert d d') (h' : Inert d' d'') : Inert d d'' :=
  ⟨h'.session.trans h.session, h'.story.trans h.story, fun t => (h'.table t).trans (h.table t),
    h'.calls.trans h.calls, h'.view.trans h.view, h'.news.trans h.news, h'.bows.trans h.bows⟩

theorem ofNear {o : Stand τ} (h : Stand.Near [] d.outside o) : Inert d { d with outside := o } := by
  obtain ⟨ms, hm, hnews, hall⟩ := h.marks
  have hnone : ms.filterMap RehearsalMark.call? = [] := by
    rw [List.filterMap_eq_nil_iff]
    intro m hmem
    rcases hall m hmem with ⟨n, rfl⟩ | ⟨t, rfl⟩ <;> rfl
  refine ⟨rfl, rfl, h.table, ?_, h.view, ?_, congrArg Sight.bows h.sight⟩
  · show o.marks.filterMap _ = _
    rw [hm, List.filterMap_append, hnone, List.append_nil]
  · show o.marks.filterMap _ = _
    rw [hm, List.filterMap_append, hnews, List.append_nil]
    rfl

end Inert

variable [Clock τ] {interval : τ} {reading : τ → Prop} {sound : Json} {n : Nat} {c : Course}
  {d : Rehearsal τ} {s : Stand τ}

/-! ## A dialogue that is not running -/

/-- A command to a dialogue that is not running does nothing. -/
theorem deed_away (w : Wiring τ (Stand τ)) (hoff : d.session.active = false) :
    d.continueStory w = (d, .done) ∧ d.advance w = (d, .done) ∧
      ∀ index, d.choose w index = (d, .done) := by
  have hno : d.session.active ≠ true := by
    rw [hoff]
    exact Bool.false_ne_true
  refine ⟨Dialogue.continueStory_heedless w fun h => absurd h hno,
    Dialogue.advance_heedless w (fun h => absurd h hno) fun h => absurd h hno, fun index => ?_⟩
  unfold Dialogue.choose
  cases d.story <;> simp [hoff]

theorem updateTimes_away (hc : Clock.Runs interval reading)
    (h : Dialogue.Resting (calmVenue n reading c) d) (hoff : d.session.active = false) (dt : τ)
    (times : Json) (publish : Publisher τ) :
    let d' := (updateTimes (wiring interval sound publish) dt times d).1
    Dialogue.Resting (calmVenue n reading c) d' ∧ Inert d d' := by
  intro d'
  have hw := Stand.suits hc n True (Hushed c) c sound publish
  unfold d' updateTimes
  match times.count with
  | .error e => exact ⟨h, .refl d⟩
  | .ok count =>
    obtain ⟨d'', e?, he, ⟨hrest, s, rfl⟩, -⟩ := times_keeps (E := fun _ => True)
      (J := fun d' => Dialogue.Resting (calmVenue n reading c) d' ∧
        ∃ s, d' = { d with scheduler := s })
      (f := Dialogue.update (wiring interval sound publish) dt)
      (fun d' ⟨hrest, s, hs⟩ => by
        subst hs
        obtain ⟨s', e, he, hrest'⟩ := Dialogue.update_away hw hrest trivial hoff (fun _ => rfl) dt
        exact ⟨_, _, he, ⟨hrest', s', rfl⟩, fun _ _ => trivial⟩)
      count.toNat ⟨h, d.scheduler, rfl⟩
    simp only [he]
    exact ⟨hrest, rfl, rfl, fun _ => rfl, rfl, rfl, rfl, rfl⟩

/-- Whatever the player does, a calm rehearsal that is not running does not hear of it. -/
theorem act_away (h : Dialogue.Resting (calmVenue n reading c) d) (hoff : d.session.active = false)
    (a : Action) :
    let d' := (publish interval sound (.actionPressed a) d).1
    Dialogue.Resting (calmVenue n reading c) d' ∧ Inert d d' := by
  obtain ⟨hs, hh⟩ := h.steady.ok
  have hears : d.outside.ears = 0 := by
    have := (h.calm trivial).ears
    rw [hoff] at this
    exact this
  have hdeaf : ¬∃ e ∈ d.outside.bus.table .actionPressed, e.handler = .dialogue := by
    rintro ⟨e, he, hh⟩
    have := List.countP_eq_zero.1 hears e he
    simp [hh] at this
  obtain ⟨o, ho, hn, hdel⟩ := publish_near interval sound hs hh.hooks
    hh.queue hh.delivering (.actionPressed a) hdeaf
  have hnear : Stand.Near [] d.outside o := hn
  have hk : (calmVenue n reading c).Keeps id d.outside o :=
    ⟨⟨hn.sound hs, hh.near hn hdel⟩, hnear.sight_nil⟩
  intro d'
  have hd' : d' = { d with outside := o } := ho
  rw [hd']
  exact ⟨⟨h.steady.outside hk.sameView, h.rest, fun hcalm => (h.calm hcalm).outside hk⟩,
    .ofNear hnear⟩

/-- What is asked of a calm rehearsal that is not running is without effect. -/
theorem execute_away (sound : Json) (hc : Clock.Runs interval reading)
    (h : Dialogue.Resting (calmVenue n reading c) d) (hoff : d.session.active = false)
    {o : Order τ} (ho : o.isRequest) :
    let d' := (execute interval sound o d).1
    Dialogue.Resting (calmVenue n reading c) d' ∧ Inert d d' := by
  obtain ⟨hgo, hadvance, hchoose⟩ := deed_away (wiring interval sound (publish interval sound)) hoff
  unfold execute carryOut
  cases o with
  | goOn =>
    simp only [hgo, conclude_done]
    exact ⟨h, .refl d⟩
  | advance =>
    simp only [hadvance, conclude_done]
    exact ⟨h, .refl d⟩
  | choose index =>
    simp only [hchoose, conclude_done]
    exact ⟨h, .refl d⟩
  | update dt times => exact updateTimes_away hc h hoff dt times _
  | act name =>
    simp only
    match Action.ofName? name with
    | none => exact ⟨h, .refl d⟩
    | some a => exact act_away h hoff a
  | begin | shutdown | move => exact ho.elim

/-! ## Ends -/

/-- The dialogue is broken off, and nobody is told. -/
theorem execute_shutdown (h : Dialogue.Resting (calmVenue n reading c) d) :
    (execute interval sound .shutdown d).1.session.active = false ∧
      (execute interval sound .shutdown d).1.outside.marks = d.outside.marks := by
  obtain ⟨s, heq, -⟩ := Dialogue.shutdown_eq (wiring interval sound (publish interval sound))
    h.steady.orderly h.steady.settled
  show (d.shutdown (wiring interval sound (publish interval sound))).session.active = false ∧
    (d.shutdown (wiring interval sound (publish interval sound))).outside.marks = d.outside.marks
  rw [heq]
  exact ⟨rfl, rfl⟩

omit [Clock τ] in
/-- A calm rehearsal that rests has told its owner of every end, and none came twice. -/
theorem ends_of_rests (h : Dialogue.Resting (calmVenue n reading c) d) (hbow : c.bow = 1) :
    d.outside.bows = tally .dialogueEnded d.outside.news ∧
      ∃ running, runningAfter d.outside.news = some running ∧
        (d.session.active = true → running = true) := by
  have hch := history_of_rests h
  have hm : d.session.moment ≠ .untold := by
    unfold Session.moment
    split
    · split <;> exact nofun
    · exact nofun
  obtain ⟨running, hrunning, htrue⟩ := hch.ends
  refine ⟨?_, running, hrunning, fun hact => htrue ?_⟩
  · have htells := hch.tells
    rw [if_neg hm, hbow, Nat.one_mul] at htells
    exact htells
  · cases hr : d.session.revealing with
    | true => exact Or.inr ⟨d.session.line, by simp [Session.moment, hact, hr]⟩
    | false => exact Or.inl (by simp [Session.moment, hact, hr])

/-- The owner of a calm rehearsal is told of every end and only of ends, of one at most for each
story that was begun. When the dialogue has ended or was broken off, nothing but the beginning of a
story has any effect. -/
theorem endings_are_told_once (sound : Json) (hc : Clock.Runs interval reading) (hs : s.IsCalm n)
    (hn : s.noticesEnd = true) {os : List (Order τ)} (hos : ∀ o ∈ os, o.isCommand) :
    let d := rehearse interval sound os (opened s)
    d.outside.bows = tally .dialogueEnded d.outside.news ∧
      (∃ running, runningAfter d.outside.news = some running ∧
        (d.session.active = true → running = true)) ∧
      ((execute interval sound .shutdown d).1.session.active = false ∧
        (execute interval sound .shutdown d).1.outside.marks = d.outside.marks) ∧
      (d.session.active = false → ∀ os' : List (Order τ), (∀ o ∈ os', o.isRequest) →
        Inert d (rehearse interval sound os' d)) := by
  intro d
  have hrest : Dialogue.Resting (calmVenue n reading ⟨none, s.noticesEnd.toNat⟩) d :=
    rehearse_calm hc hs hos
  obtain ⟨hbows, hends⟩ := ends_of_rests hrest (by rw [hn]; rfl)
  refine ⟨hbows, hends, execute_shutdown hrest, fun hoff os' hos' => ?_⟩
  exact ((rehearse_keeps os'
    (J := fun d' => Dialogue.Resting (calmVenue n reading _) d' ∧ Inert d d')
    (A := fun _ => True) (fun o ho d' ⟨hrest', hinert⟩ => by
      obtain ⟨hrest'', hinert'⟩ := execute_away sound hc hrest'
        (by rw [hinert.session]; exact hoff) (hos' o ho)
      exact ⟨⟨hrest'', hinert.trans hinert'⟩, trivial⟩) ⟨hrest, .refl d⟩).1).2

/-- A story with a single line ends once, and the player's signals come too late. -/
theorem farewell_is_told_once :
    let content : Json := .obj [("nodes", .arr [.obj [("id", .str "gate"),
      ("lines", .arr [.obj [("text", .str "Bye")]])]])]
    let s : Stand Rat := { slots := .count 2 }
    let os : List (Order Rat) := [.begin (.content content), .advance, .update 1 (.int 2), .advance]
    let late : List (Order Rat) := [.act "CONFIRM", .update 1 (.int 3), .choose (.int 0), .goOn]
    (rehearse 1 .null os (opened s)).session.active = false ∧
      (rehearse 1 .null os (opened s)).outside.bows = 1 ∧
      Inert (rehearse 1 .null os (opened s))
        (rehearse 1 .null late (rehearse 1 .null os (opened s))) := by
  intro content s os late
  have hs : s.IsCalm 2 := by
    refine ⟨⟨rfl, rfl, rfl, fun v hv => ?_, fun k hk => ?_⟩, fun k hk => ?_⟩
    · cases hv
    · cases hk
    · cases hk
  have hos : ∀ o ∈ os, o.isCommand := by simp [os, Order.isCommand]
  have hlate : ∀ o ∈ late, o.isRequest := by simp [late, Order.isRequest]
  have hoff : (rehearse 1 .null os (opened s)).session.active = false := by decide +kernel
  have htally : tally .dialogueEnded (rehearse 1 .null os (opened s)).outside.news = 1 := by
    decide +kernel
  obtain ⟨hbows, -, -, hinert⟩ := endings_are_told_once .null (Clock.runs_rat 1) hs rfl hos
  exact ⟨hoff, hbows.trans htally, hinert hoff late hlate⟩

end Rehearsal
end VisualNovel
