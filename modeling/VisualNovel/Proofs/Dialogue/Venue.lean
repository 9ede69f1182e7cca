import VisualNovel.Proofs.Dialogue.History
import VisualNovel.Proofs.Dialogue.Tasks
import VisualNovel.View.Basic
/-!
# What a dialogue keeps

A venue says what a dialogue relies on outside of it: which surroundings are sound, the sight
they give of what reached them, and which times its clock can show. It may be calm: then nobody
answers a notice with a command.

`Steady` is what a dialogue keeps in any venue, whatever is done in answer to most notices;
`Composed` is what it keeps beyond that in a calm one. `Suits` and `Attends` are what is asked of a
wiring; `Still` and `Poised` hold where commands are half done.
-/
namespace VisualNovel

/-- What of the surroundings matters to a dialogue. -/
structure Sight where
  /-- The line that the view holds. -/
  line : String
  /-- The choices that the view holds. -/
  offered : List Button
  /-- How often the dialogue is subscribed to the player's actions. -/
  ears : Nat
  /-- What the dialogue published. -/
  news : List Notice
  /-- How often its owner was told that a story has ended. -/
  bows : Nat

/-- The sight after a call. -/
def Sight.after (c : Call) (p : Sight) : Sight :=
  match c with
  | .line text => { p with line := text }
  | .choices offered => { p with offered := offered.map Button.ofChoice }
  | .hideChoices => { p with offered := [] }
  | _ => p

/-- A call changes nothing but what the view holds. -/
theorem Sight.after_eq (c : Call) (p : Sight) :
    p.after c = { p with line := (p.after c).line, offered := (p.after c).offered } := by
  cases c <;> rfl

/-- What a dialogue relies on outside of it. -/
structure Venue (τ ω : Type) where
  /-- Which surroundings are sound. -/
  ok : ω → Prop
  sight : ω → Sight
  /-- The number of choices that the view has room for. -/
  slots : Nat
  /-- Which times the clock can show. -/
  reading : τ → Prop
  /-- Whether nobody answers a notice with a command. -/
  calm : Prop
  course : Course

/-- The moment that a session shows. -/
def Session.moment (s : Session) : Moment :=
  if s.active then if s.revealing then .line s.line else .pause else .away

/-- The moment after a command. -/
def Turn.moment (t : Turn) (s : Session) : Moment :=
  match t with
  | .ended => .untold
  | _ => s.moment

/-- A command whose choices the story does not refuse; when it has ended the dialogue, none is
running. -/
def Turn.Fits (t : Turn) (s : Session) : Prop :=
  match t with
  | .ended => s.active = false
  | .refused _ => False
  | _ => True

namespace Venue
variable {τ ω : Type} (S : Venue τ ω)

/-- Surroundings that became others stay sound, and so does their sight change. -/
def Keeps (f : Sight → Sight) (o o' : ω) : Prop := S.ok o' ∧ S.sight o' = f (S.sight o)

/-- A waiting task is due at a time that the clock can show, and has the name that it should. -/
def Timely (t : Task τ (Activity Unit)) (rest : Activity Unit) : Prop :=
  S.reading t.wakeTime ∧ t.name = rest.label

/-- What holds of a dialogue at any point of a command. -/
structure Sane (d : Dialogue τ Unit ω) : Prop where
  ok : S.ok d.outside
  orderly : d.scheduler.Orderly S.Timely
  time : S.reading d.scheduler.time
  revealed : d.session.revealed ≤ d.session.line.length

/-- No line is being revealed, and no task of the dialogue waits. -/
structure Still (d : Dialogue τ Unit ω) : Prop extends S.Sane d where
  revealing : d.session.revealing = false
  skip : d.session.skip = false
  free : Dialogue.Free d.scheduler d.reveal d.focus

/-- The line that the notices published so far leave under way, if they came in a possible order. -/
def Under (d : Dialogue τ Unit ω) (line? : Option String) : Prop :=
  lineAfter (S.sight d.outside).news = some line?

/-- What a dialogue keeps. -/
structure Steady (d : Dialogue τ Unit ω) : Prop extends S.Sane d where
  phase : d.session.phase = .revealing ↔ d.session.revealing = true
  skip : d.session.skip = true → d.session.revealing = true
  shows : d.session.revealing = true → d.session.active = true ∧ d.session.pending = [] ∧
    (S.sight d.outside).line = d.session.line ∧ (S.sight d.outside).offered = []
  reveals : d.session.revealing = true →
    ∃ id t, Dialogue.Reveals d.scheduler d.reveal d.focus d.session.line id t
  idles : d.session.revealing = false → Dialogue.Free d.scheduler d.reveal d.focus ∨
    ∃ id t, Dialogue.Focusing d.scheduler d.reveal d.focus id t
  pace : ∃ line?, S.Under d line? ∧
    (d.session.active = true → line? = if d.session.revealing then some d.session.line else none)

/-- The history that the sight of the surroundings shows. -/
def Chronicle (d : Dialogue τ Unit ω) (m : Moment) : Prop :=
  History S.course (S.sight d.outside).news (S.sight d.outside).bows d.story m

/-- What a dialogue keeps in a calm venue; `m` is the moment that it has come to. -/
structure Composed (d : Dialogue τ Unit ω) (m : Moment) : Prop where
  chronicle : S.Chronicle d m
  ears : (S.sight d.outside).ears = if d.session.active then 1 else 0
  running : d.session.active = true → d.session.phase = .revealing ∨
    d.session.phase = .awaitingChoice ∨ d.session.phase = .awaitingAdvance
  resting : d.session.active = false → (d.session.phase = .idle ∨ d.session.phase = .ended) ∧
    d.session.pending = [] ∧ Dialogue.Free d.scheduler d.reveal d.focus
  awaits : d.session.phase = .awaitingChoice ↔ d.session.pending ≠ []
  pending : d.session.pending ≠ [] → d.session.pending = d.storyChoices.take S.slots
  focusing : ∀ id t, Dialogue.own? d.scheduler id = some t → t.body = .suspended .focusChoice →
    d.session.phase = .awaitingChoice

/-- In a calm venue: a dialogue that is about to go on from a moment. -/
structure Poised (d : Dialogue τ Unit ω) (m : Moment) : Prop where
  chronicle : S.Chronicle d m
  ears : (S.sight d.outside).ears = 1
  active : d.session.active = true
  revealing : d.session.revealing = false
  pending : d.session.pending = []

/-- What comes of a command. -/
structure Lands (d d' : Dialogue τ Unit ω) (t : Turn) : Prop where
  steady : S.Steady d'
  follows : d.scheduler.Follows d'.scheduler
  calm : S.calm → S.Composed d' (t.moment d'.session) ∧ t.Fits d'.session

/-- The venue in which a notice is about to be told. -/
def heard (n : Notice) : Venue τ ω :=
  { S with sight := fun o => { S.sight o with news := (S.sight o).news ++ [n] } }

/-- A dialogue that takes no heed of a command to go on: it is not active, or choices are
pending. -/
def Heedless (d : Dialogue τ Unit ω) : Prop :=
  d.session.active = true →
    d.session.pending ≠ [] ∧ ∃ p, d.story = some p ∧ p.canContinue = false ∧ p.choices ≠ []

/-- What is asked of the stage of a wiring and of its clock. -/
structure Suits [Clock τ] (w : Wiring τ ω) : Prop where
  slots : ∀ o, S.ok o → w.stage.slots o = .count S.slots
  perform : ∀ c o, S.ok o → (∀ cs, c = .choices cs → cs.length ≤ S.slots) →
    ∃ o', w.stage.perform c o = (o', none) ∧ S.Keeps (·.after c) o o'
  report : ∀ e o, S.ok o → S.Keeps id o (w.stage.report e o)
  listen : ∀ o, S.ok o → ∃ o', w.listen o = (o', none) ∧
    S.Keeps (fun p => { p with ears := p.ears + 1 }) o o'
  unlisten : ∀ o, S.ok o → S.Keeps (fun p => { p with ears := 0 }) o (w.unlisten o)
  focusStart : ∀ o, S.ok o → S.Keeps id o (w.focusStart o)
  wait : ∀ t, S.reading t → ∃ t', Clock.add t w.manner.interval = .ok t'
  pass : ∀ t dt t', S.reading t → Clock.add t dt = .ok t' → S.reading t'

/-- What is asked of the way in which a wiring publishes notices. -/
structure Attends (w : Wiring τ ω) : Prop where
  calm : S.calm → ∀ n d, n.topic.isNovel = true → S.ok d.outside →
    ∃ o', w.publish n d = { d with outside := o' } ∧
      S.Keeps (fun p => { p with news := p.news ++ [n] }) d.outside o'
  lineStarted : ∀ text tags d, S.ok d.outside → d.session.active = true →
    d.session.revealing = false → d.session.pending = [] →
    ∃ o', w.publish (.lineStarted text tags) d = { d with outside := o' } ∧
      S.Keeps (fun p => { p with news := p.news ++ [.lineStarted text tags] }) d.outside o'
  lineRevealed : ∀ text d, S.Still d → (S.heard (.lineRevealed text)).Under d none →
    d.session.pending = [] →
    S.Still (w.publish (.lineRevealed text) d) ∧ S.Under (w.publish (.lineRevealed text) d) none ∧
      (w.publish (.lineRevealed text) d).session.pending = [] ∧
      d.scheduler.Follows (w.publish (.lineRevealed text) d).scheduler
  choicesShown : ∀ cs d, S.Still d → (S.heard (.choicesShown cs)).Under d none →
    d.session.phase ≠ .revealing → Heedless d →
    S.Still (w.publish (.choicesShown cs) d) ∧ S.Under (w.publish (.choicesShown cs) d) none ∧
      (w.publish (.choicesShown cs) d).session.phase ≠ .revealing ∧
      d.scheduler.Follows (w.publish (.choicesShown cs) d).scheduler
  other : ∀ n d, n = .plain .dialogueStarted ∨ n = .plain .dialogueEnded ∨
    (∃ c, n = .choiceMade c) → (S.heard n).Steady d →
    S.Steady (w.publish n d) ∧ d.scheduler.Follows (w.publish n d).scheduler

/-! ## Changes outside -/

section
variable {S}

theorem Keeps.trans {f g : Sight → Sight} {o o' o'' : ω} (h : S.Keeps f o o')
    (h' : S.Keeps g o' o'') : S.Keeps (g ∘ f) o o'' :=
  ⟨h'.1, h'.2.trans (congrArg g h.2)⟩

theorem Sane.outside {d : Dialogue τ Unit ω} {o : ω} (h : S.Sane d) (ho : S.ok o) :
    S.Sane { d with outside := o } := ⟨ho, h.orderly, h.time, h.revealed⟩

theorem Still.heard {d : Dialogue τ Unit ω} (h : S.Still d) (n : Notice) : (S.heard n).Still d :=
  ⟨⟨h.ok, h.orderly, h.time, h.revealed⟩, h.revealing, h.skip, h.free⟩

theorem Still.outside {d : Dialogue τ Unit ω} {o : ω} (h : S.Still d) (ho : S.ok o) :
    S.Still { d with outside := o } := ⟨h.toSane.outside ho, h.revealing, h.skip, h.free⟩

/-- Surroundings whose view holds the same as before, with no other notices. -/
structure SameView (o o' : ω) : Prop where
  ok : S.ok o'
  line : (S.sight o').line = (S.sight o).line
  offered : (S.sight o').offered = (S.sight o).offered
  news : (S.sight o').news = (S.sight o).news

theorem Keeps.sameView {o o' : ω} (h : S.Keeps id o o') : S.SameView o o' :=
  ⟨h.1, congrArg Sight.line h.2, congrArg Sight.offered h.2, congrArg Sight.news h.2⟩

theorem Under.follows {d d' : Dialogue τ Unit ω} {line? : Option String} (h : S.Under d line?)
    (hd : (S.sight d'.outside).news = (S.sight d.outside).news) : S.Under d' line? := by
  unfold Under at h ⊢
  rw [hd]
  exact h

theorem Under.outside {d : Dialogue τ Unit ω} {o : ω} {line? : Option String}
    (h : S.Under d line?) (ho : (S.sight o).news = (S.sight d.outside).news) :
    S.Under { d with outside := o } line? := h.follows ho

/-- A notice about no line may come when no line is under way. -/
theorem Under.heard {d : Dialogue τ Unit ω} {line? line'? : Option String} (h : S.Under d line?)
    {n : Notice} (hn : n.pace line? = some line'?) : (S.heard n).Under d line'? :=
  (lineAfter_append h n).trans hn

/-- What was heard in the venue is under way. -/
theorem Under.ofHeard {d : Dialogue τ Unit ω} {o : ω} {n : Notice} {line? : Option String}
    (h : (S.heard n).Under d line?)
    (ho : S.Keeps (fun p => { p with news := p.news ++ [n] }) d.outside o) :
    S.Under { d with outside := o } line? := by
  unfold Under at h ⊢
  rw [show S.sight o = _ from ho.2]
  exact h

theorem Steady.outside {d : Dialogue τ Unit ω} {o : ω} (h : S.Steady d)
    (ho : S.SameView d.outside o) : S.Steady { d with outside := o } where
  toSane := h.toSane.outside ho.ok
  phase := h.phase
  skip := h.skip
  shows hr := by
    rw [show (S.sight o).line = _ from ho.line, show (S.sight o).offered = _ from ho.offered]
    exact h.shows hr
  reveals := h.reveals
  idles := h.idles
  pace := by
    obtain ⟨line?, hu, hl⟩ := h.pace
    exact ⟨line?, hu.outside ho.news, hl⟩

theorem Composed.outside {d : Dialogue τ Unit ω} {o : ω} {m : Moment} (h : S.Composed d m)
    (ho : S.Keeps id d.outside o) : S.Composed { d with outside := o } m where
  chronicle := by
    unfold Chronicle
    rw [show S.sight o = S.sight d.outside from ho.2]
    exact h.chronicle
  ears := by
    rw [show S.sight o = S.sight d.outside from ho.2]
    exact h.ears
  running := h.running
  resting := h.resting
  awaits := h.awaits
  pending := h.pending
  focusing := h.focusing

theorem Poised.outside {d : Dialogue τ Unit ω} {o : ω} {m : Moment} (h : S.Poised d m)
    (ho : S.Keeps id d.outside o) : S.Poised { d with outside := o } m where
  chronicle := by
    unfold Chronicle
    rw [show S.sight o = S.sight d.outside from ho.2]
    exact h.chronicle
  ears := by
    rw [show S.sight o = S.sight d.outside from ho.2]
    exact h.ears
  active := h.active
  revealing := h.revealing
  pending := h.pending

theorem Lands.outside {d d' : Dialogue τ Unit ω} {o : ω} {t : Turn} (h : S.Lands d d' t)
    (ho : S.Keeps id d'.outside o) : S.Lands d { d' with outside := o } t :=
  ⟨h.steady.outside ho.sameView, h.follows, fun hc => ⟨(h.calm hc).1.outside ho, (h.calm hc).2⟩⟩

theorem Lands.after {d d' d'' : Dialogue τ Unit ω} {t : Turn} (h : S.Lands d' d'' t)
    (hf : d.scheduler.Follows d'.scheduler) : S.Lands d d'' t :=
  ⟨h.steady, hf.trans h.follows, h.calm⟩

/-- No line is under way in a dialogue that is running and reveals none. -/
theorem Steady.under {d : Dialogue τ Unit ω} (h : S.Steady d) (hact : d.session.active = true)
    (hr : d.session.revealing = false) : S.Under d none := by
  obtain ⟨line?, hu, hl⟩ := h.pace
  have hnone := hl hact
  rw [hr] at hnone
  cases hnone
  exact hu

/-- A dialogue that is still is steady when no line is under way, unless it is in the phase of a
reveal. -/
theorem Still.steady {d : Dialogue τ Unit ω} (h : S.Still d) (hp : d.session.phase ≠ .revealing)
    {line? : Option String} (hu : S.Under d line?) (hl : d.session.active = true → line? = none) :
    S.Steady d where
  toSane := h.toSane
  phase := ⟨fun hr => absurd hr hp, fun hr => by rw [h.revealing] at hr; cases hr⟩
  skip hs := by
    rw [h.skip] at hs
    cases hs
  shows hr := by
    rw [h.revealing] at hr
    cases hr
  reveals hr := by
    rw [h.revealing] at hr
    cases hr
  idles _ := Or.inl h.free
  pace := ⟨line?, hu, fun hact => by rw [h.revealing]; exact hl hact⟩

/-- A steady dialogue has at most one task. -/
theorem Steady.settled {d : Dialogue τ Unit ω} (h : S.Steady d) :
    Dialogue.Settled d.scheduler d.reveal d.focus := by
  cases hr : d.session.revealing with
  | true =>
    obtain ⟨id, t, hrev⟩ := h.reveals hr
    exact Or.inr (Or.inl ⟨_, id, t, hrev⟩)
  | false =>
    rcases h.idles hr with hfree | hfocus
    · exact Or.inl hfree
    · exact Or.inr (Or.inr hfocus)

theorem Steady.skip_false {d : Dialogue τ Unit ω} (h : S.Steady d)
    (hr : d.session.revealing = false) : d.session.skip = false := by
  cases hs : d.session.skip with
  | false => rfl
  | true =>
    have := h.skip hs
    rw [hr] at this
    cases this

/-- A scheduler with the same tasks of the dialogue's own makes no difference. -/
theorem Steady.reschedule {d : Dialogue τ Unit ω} (h : S.Steady d)
    {s : Scheduler τ (Activity Unit)} (ho : s.Orderly S.Timely) (ht : S.reading s.time)
    (ha : Dialogue.Alike d.scheduler s) : S.Steady { d with scheduler := s } where
  toSane := ⟨h.ok, ho, ht, h.revealed⟩
  phase := h.phase
  skip := h.skip
  shows := h.shows
  reveals hr := by
    obtain ⟨id, t, hrev⟩ := h.reveals hr
    exact ⟨id, t, hrev.alike ha⟩
  idles hr := by
    rcases h.idles hr with hfree | ⟨id, t, hf⟩
    · exact Or.inl (hfree.alike ha)
    · exact Or.inr ⟨id, t, hf.alike ha⟩
  pace := h.pace

theorem Composed.reschedule {d : Dialogue τ Unit ω} {m : Moment} (h : S.Composed d m)
    {s : Scheduler τ (Activity Unit)} (ha : Dialogue.Alike d.scheduler s) :
    S.Composed { d with scheduler := s } m where
  chronicle := h.chronicle
  ears := h.ears
  running := h.running
  resting hna := by
    obtain ⟨hphase, hp, hfree⟩ := h.resting hna
    exact ⟨hphase, hp, hfree.alike ha⟩
  awaits := h.awaits
  pending := h.pending
  focusing id t hw := h.focusing id t ((ha.own id).symm.trans hw)

/-- A task that is over may be noted as the one that reveals the line. -/
theorem Steady.note {d : Dialogue τ Unit ω} (h : S.Steady d) (hr : d.session.revealing = false)
    {id : TaskId} (ho : d.scheduler.IsOver id) : S.Steady { d with reveal := some id } where
  toSane := ⟨h.ok, h.orderly, h.time, h.revealed⟩
  phase := h.phase
  skip := h.skip
  shows := h.shows
  reveals hr' := by
    rw [show d.session.revealing = true from hr'] at hr
    cases hr
  idles _ := by
    have hspent : Dialogue.Spent d.scheduler (some id) := fun i hi => by
      cases hi
      exact ho
    rcases h.idles hr with hfree | ⟨i, u, hf⟩
    · exact Or.inl ⟨hfree.none, hspent, hfree.focus⟩
    · exact Or.inr ⟨i, u, hf.noted, hf.waits, hf.rest, hf.only, hspent⟩
  pace := h.pace

theorem Composed.note {d : Dialogue τ Unit ω} {m : Moment} (h : S.Composed d m) {id : TaskId}
    (ho : d.scheduler.IsOver id) : S.Composed { d with reveal := some id } m where
  chronicle := h.chronicle
  ears := h.ears
  running := h.running
  resting ha := by
    obtain ⟨hphase, hp, hfree⟩ := h.resting ha
    exact ⟨hphase, hp, hfree.none, fun i hi => by cases hi; exact ho, hfree.focus⟩
  awaits := h.awaits
  pending := h.pending
  focusing := h.focusing

theorem Composed.ofPause {d : Dialogue τ Unit ω} (h : S.Chronicle d .pause)
    (he : (S.sight d.outside).ears = 1) (ha : d.session.active = true)
    (hr : d.session.revealing = false)
    (hp : d.session.phase = .awaitingAdvance ∧ d.session.pending = [] ∧
        Dialogue.Free d.scheduler d.reveal d.focus ∨
      d.session.phase = .awaitingChoice ∧ d.session.pending ≠ [] ∧
        d.session.pending = d.storyChoices.take S.slots) :
    S.Composed d d.session.moment := by
  have hm : d.session.moment = .pause := by simp [Session.moment, ha, hr]
  have hresting (hna : d.session.active = false) : False := by
    rw [ha] at hna
    cases hna
  rcases hp with ⟨hphase, hnil, hfree⟩ | ⟨hphase, hne, htake⟩
  · refine ⟨hm ▸ h, by rw [he, ha]; rfl, fun _ => Or.inr (Or.inr hphase),
      fun hna => (hresting hna).elim, by simp [hphase, hnil], fun hne => absurd hnil hne,
      fun id t hw => by rw [hfree.none id] at hw; cases hw⟩
  · exact ⟨hm ▸ h, by rw [he, ha]; rfl, fun _ => Or.inr (Or.inl hphase),
      fun hna => (hresting hna).elim, by simp [hphase, hne], fun _ => htake, fun _ _ _ _ => hphase⟩

theorem Composed.ofAway {d : Dialogue τ Unit ω} {m : Moment} (h : S.Chronicle d m)
    (he : (S.sight d.outside).ears = 0) (ha : d.session.active = false)
    (hphase : d.session.phase = .idle ∨ d.session.phase = .ended) (hp : d.session.pending = [])
    (hfree : Dialogue.Free d.scheduler d.reveal d.focus) : S.Composed d m := by
  refine ⟨h, by rw [he, ha]; rfl, fun hact => ?_, fun _ => ⟨hphase, hp, hfree⟩, ?_,
    fun hne => absurd hp hne, fun id t hw => by rw [hfree.none id] at hw; cases hw⟩
  · rw [ha] at hact
    cases hact
  · rcases hphase with h | h <;> simp [h, hp]

variable [Clock τ] {w : Wiring τ ω}

theorem Suits.perform_eq (hw : S.Suits w) {d : Dialogue τ Unit ω} (ho : S.ok d.outside) (c : Call)
    (hc : ∀ cs, c = .choices cs → cs.length ≤ S.slots) :
    ∃ o', d.perform w.stage c = ({ d with outside := o' }, none) ∧
      S.Keeps (·.after c) d.outside o' := by
  obtain ⟨o', hp, hk⟩ := hw.perform c d.outside ho hc
  refine ⟨o', ?_, hk⟩
  unfold Dialogue.perform Dialogue.attempt
  rw [hp]

theorem Suits.reportAll_eq (hw : S.Suits w) (es : List Log.Entry) {d : Dialogue τ Unit ω}
    (ho : S.ok d.outside) :
    ∃ o', d.reportAll w.stage es = { d with outside := o' } ∧ S.Keeps id d.outside o' := by
  induction es generalizing d with
  | nil => exact ⟨d.outside, rfl, ho, rfl⟩
  | cons e es ih =>
    have hk := hw.report e d.outside ho
    obtain ⟨o', he, hk'⟩ := ih (d := d.report w.stage e) hk.1
    exact ⟨o', he, hk.trans hk'⟩

omit [Clock τ] in
/-- A wiring that only writes notices down, or hands them on to nobody that minds. -/
theorem Attends.ofOutside
    (hpub : ∀ n d, n.topic.isNovel = true → S.ok d.outside → ∃ o, w.publish n d =
      { d with outside := o } ∧
        S.Keeps (fun p => { p with news := p.news ++ [n] }) d.outside o) :
    S.Attends w where
  calm _ := hpub
  lineStarted text tags d ho _ _ _ := hpub (.lineStarted text tags) d rfl ho
  lineRevealed text d h hu hp := by
    obtain ⟨o, he, hk⟩ := hpub (.lineRevealed text) d rfl h.ok
    rw [he]
    exact ⟨h.outside hk.1, hu.ofHeard hk, hp, .refl _⟩
  choicesShown cs d h hu hp _ := by
    obtain ⟨o, he, hk⟩ := hpub (.choicesShown cs) d rfl h.ok
    rw [he]
    exact ⟨h.outside hk.1, hu.ofHeard hk, hp, .refl _⟩
  other n d hn h := by
    have hnovel : n.topic.isNovel = true := by
      rcases hn with rfl | rfl | ⟨c, rfl⟩ <;> rfl
    obtain ⟨o, he, hk⟩ := hpub n d hnovel h.ok
    rw [he]
    refine ⟨⟨⟨hk.1, h.orderly, h.time, h.revealed⟩, h.phase, h.skip, fun hr => ?_, h.reveals,
      h.idles, ?_⟩, .refl _⟩
    · rw [show S.sight o = _ from hk.2]
      exact h.shows hr
    · obtain ⟨line?, hu, hl⟩ := h.pace
      exact ⟨line?, hu.ofHeard hk, hl⟩

end

end Venue
end VisualNovel
