import VisualNovel.Proofs.Dialogue.History
import VisualNovel.Proofs.Dialogue.Tasks
import VisualNovel.Proofs.Scheduler.Timetable
import VisualNovel.View.Basic
/-!
# Dialogues in a chamber

In a chamber nobody answers what a dialogue publishes, so each command is done in one piece, and
what comes of it can be told in full. A chamber says which surroundings are sound and what can be
seen in them: the panel with the choices, if anybody looks at it, how often the dialogue listens to
the player, and what it published. Images may be frail there: to show one may break off.

Between two commands a dialogue is away, reads a line, offers choices or waits to be advanced
(`Doing`); what it keeps besides is `Kept`. What a wiring must do for that is `Fits`.
-/
namespace VisualNovel

/-- Whether a call shows an image. -/
def Call.isImage : Call → Bool
  | expression _ _ | splash _ => true
  | _ => false

/-- Whether a call is about the choices or the focus. -/
def Call.onPanel : Call → Bool
  | choices _ | hideChoices | clearFocus | focus _ => true
  | _ => false

/-- The choices that a view holds, and what has the focus. -/
structure Panel where
  offered : List Button
  focus : Option Target

namespace Panel

/-- The panel after a call. -/
def after (c : Call) (p : Panel) : Panel :=
  match c with
  | .choices offered => { p with offered := offered.map Button.ofChoice }
  | .hideChoices => ⟨[], if p.focus = some startButton then p.focus else none⟩
  | .clearFocus => { p with focus := none }
  | .focus slot => if slot < p.offered.length then { p with focus := some (.slot slot) } else p
  | _ => p

/-- Nothing has the focus but the start button or a choice on offer. -/
def Lit (p : Panel) : Prop :=
  p.focus = none ∨ p.focus = some startButton ∨
    ∃ k : Nat, k < p.offered.length ∧ p.focus = some (.slot k)

/-- The choices on offer are these, and no other one has the focus. -/
def Shows (bs : List Button) (p : Panel) : Prop := p.offered = bs ∧ p.Lit

theorem lit_of_dark {p : Panel} (h : p.focus = none) : p.Lit := Or.inl h

theorem shows_hide (p : Panel) : (p.after .hideChoices).Shows [] := by
  refine ⟨rfl, ?_⟩
  by_cases hs : p.focus = some startButton
  · exact Or.inr (Or.inl ((if_pos hs).trans hs))
  · exact lit_of_dark (if_neg hs)

/-- A call that neither offers choices nor takes them away keeps the panel as it should be. -/
theorem shows_after {p : Panel} {bs : List Button} (h : p.Shows bs) {c : Call}
    (hc : ∀ cs, c ≠ .choices cs) (hhide : c ≠ .hideChoices) : (p.after c).Shows bs := by
  cases c with
  | choices cs => exact absurd rfl (hc cs)
  | hideChoices => exact absurd rfl hhide
  | clearFocus => exact ⟨h.1, lit_of_dark rfl⟩
  | focus slot =>
    unfold after
    by_cases hs : slot < p.offered.length
    · simp only [hs, if_true]
      exact ⟨h.1, Or.inr (Or.inr ⟨slot, hs, rfl⟩)⟩
    · simp only [hs, if_false]
      exact h
  | play | stop | switchTheme | expression | splash | name | line | visible => exact h

end Panel

/-- What of the surroundings matters to the course of a dialogue. -/
structure Prospect where
  /-- The panel with the choices, if anybody looks at it. -/
  panel : Option Panel
  /-- How often the dialogue is subscribed to the player's actions. -/
  ears : Nat
  /-- What the dialogue published. -/
  news : List Notice

namespace Prospect

/-- The prospect after a call. -/
def after (c : Call) (p : Prospect) : Prospect := { p with panel := p.panel.map (·.after c) }

theorem after_eq_self {c : Call} (h : c.onPanel = false) (p : Prospect) : p.after c = p := by
  have hpanel : p.panel.map (·.after c) = p.panel := by
    cases p.panel with
    | none => rfl
    | some q => cases c <;> first | rfl | cases h
  unfold after
  rw [hpanel]

/-- The prospect when the start button has got the focus. -/
def atStart (p : Prospect) : Prospect :=
  { p with panel := p.panel.map fun q => { q with focus := some startButton } }

/-- The prospect when a notice was published. -/
def told (n : Notice) (p : Prospect) : Prospect := { p with news := p.news ++ [n] }

/-- If anybody looks, these choices are on offer, and no other one has the focus. -/
def Shows (bs : List Button) (p : Prospect) : Prop := ∀ q, p.panel = some q → q.Shows bs

theorem shows_hide (p : Prospect) : (p.after .hideChoices).Shows [] := by
  intro q hq
  obtain ⟨q', -, rfl⟩ := Option.map_eq_some_iff.1 hq
  exact Panel.shows_hide q'

theorem Shows.after {p : Prospect} {bs : List Button} (h : p.Shows bs) {c : Call}
    (hc : ∀ cs, c ≠ .choices cs) (hhide : c ≠ .hideChoices) : (p.after c).Shows bs := by
  intro q hq
  obtain ⟨q', hq', rfl⟩ := Option.map_eq_some_iff.1 hq
  exact Panel.shows_after (h q' hq') hc hhide

theorem Shows.atStart {p : Prospect} {bs : List Button} (h : p.Shows bs) : p.atStart.Shows bs := by
  intro q hq
  obtain ⟨q', hq', rfl⟩ := Option.map_eq_some_iff.1 hq
  exact ⟨(h q' hq').1, Or.inr (Or.inl rfl)⟩

/-- If anybody looks, no choice has the focus. -/
def Dark (p : Prospect) : Prop := ∀ q, p.panel = some q → ∀ k, q.focus ≠ some (.slot k)

theorem Shows.dark {p : Prospect} (h : p.Shows []) : p.Dark := by
  intro q hq k hk
  obtain ⟨hoffered, hnone | hstart | ⟨i, hi, -⟩⟩ := h q hq
  · rw [hk] at hnone
    cases hnone
  · rw [hk] at hstart
    cases hstart
  · rw [hoffered] at hi
    exact absurd hi (Nat.not_lt_zero i)

/-- When the focus was taken away, no choice has it. -/
theorem dark_clearFocus (p : Prospect) : (p.after .clearFocus).Dark := by
  intro q hq k hk
  obtain ⟨q', -, rfl⟩ := Option.map_eq_some_iff.1 hq
  cases hk

/-- New choices take the place of the old ones, and then nothing has the focus. -/
theorem shows_offer (p : Prospect) (cs : List Choice) (n : Notice) :
    (((p.after (.choices cs)).told n).after .clearFocus).Shows (cs.map Button.ofChoice) := by
  intro q hq
  obtain ⟨q', hq', rfl⟩ := Option.map_eq_some_iff.1 hq
  obtain ⟨q'', -, rfl⟩ := Option.map_eq_some_iff.1 (show p.panel.map _ = some q' from hq')
  exact ⟨rfl, Panel.lit_of_dark rfl⟩

end Prospect

/-- What a dialogue relies on outside of it, where nobody answers it. -/
structure Chamber (τ ω : Type) where
  /-- Which surroundings are sound. -/
  ok : ω → Prop
  prospect : ω → Prospect
  /-- The number of choices that the view has room for. -/
  slots : Nat
  table : Timetable τ
  /-- Whether to show an image may break off. -/
  frail : Prop
  /-- Which values may name a sound. -/
  named : Json → Prop

namespace Chamber
variable {τ ω : Type} (S : Chamber τ ω)

/-- Surroundings that became others stay sound, and so does their prospect change. -/
def Keeps (f : Prospect → Prospect) (o o' : ω) : Prop :=
  S.ok o' ∧ S.prospect o' = f (S.prospect o)

/-- Whether a dialogue may make a call: it offers no more choices than there is room for, and plays
nothing that cannot be named. -/
def Allows : Call → Prop
  | .choices offered => offered.length ≤ S.slots
  | .play sound => S.named sound
  | _ => True

/-- What was published so far. -/
def news (d : Dialogue τ Unit ω) : List Notice := (S.prospect d.outside).news

/-- A waiting task is due when the timetable says. -/
def Due (s : Scheduler τ (Activity Unit)) (t : Task τ (Activity Unit)) (_ : Activity Unit) :
    Prop := S.table.timely s.time s.tick t.wakeTime t.wakeTick

/-- What holds of a dialogue at any point of a command. -/
structure Sane (d : Dialogue τ Unit ω) : Prop where
  ok : S.ok d.outside
  orderly : d.scheduler.Orderly (S.Due d.scheduler)
  time : S.table.reading d.scheduler.time
  revealed : d.session.revealed ≤ d.session.line.length

/-- What a dialogue is doing between two commands. -/
inductive Doing (d : Dialogue τ Unit ω) : Prop where
  /-- No story is under way. -/
  | away (active : d.session.active = false) (revealing : d.session.revealing = false)
    (skip : d.session.skip = false) (pending : d.session.pending = [])
    (free : Dialogue.Free d.scheduler d.reveal d.focus)
  /-- A line is being revealed. -/
  | reading (active : d.session.active = true) (revealing : d.session.revealing = true)
    (phase : d.session.phase = .revealing) (pending : d.session.pending = [])
    (task : ∃ id t, Dialogue.Reveals d.scheduler d.reveal d.focus d.session.line id t)
  /-- Choices are on offer. -/
  | offering (active : d.session.active = true) (revealing : d.session.revealing = false)
    (skip : d.session.skip = false) (phase : d.session.phase = .awaitingChoice)
    (some : d.session.pending ≠ []) (pending : d.session.pending = d.storyChoices.take S.slots)
    (tasks : Dialogue.Free d.scheduler d.reveal d.focus ∨
      ∃ id t, Dialogue.Focusing d.scheduler d.reveal d.focus id t)
  /-- The dialogue waits to be advanced: there is nothing to choose, or a line broke off. -/
  | waiting (active : d.session.active = true) (revealing : d.session.revealing = false)
    (skip : d.session.skip = false) (pending : d.session.pending = [])
    (phase : d.session.phase = .awaitingAdvance ∧ d.storyChoices.take S.slots = [] ∨
      S.frail ∧ d.session.phase = .revealing)
    (free : Dialogue.Free d.scheduler d.reveal d.focus)

/-- What a dialogue keeps. -/
structure Kept (d : Dialogue τ Unit ω) : Prop extends S.Sane d where
  shows : (S.prospect d.outside).Shows (d.session.pending.map Button.ofChoice)
  ears : (S.prospect d.outside).ears = if d.session.active then 1 else 0
  story : d.session.active = true → ∃ p, d.story = some p
  doing : S.Doing d

/-- A dialogue that is about to go on with a story. -/
structure Poised (p : Story.Player) (d : Dialogue τ Unit ω) : Prop extends S.Sane d where
  active : d.session.active = true
  revealing : d.session.revealing = false
  skip : d.session.skip = false
  pending : d.session.pending = []
  story : d.story = some p
  tasks : Dialogue.Free d.scheduler d.reveal d.focus ∨
    ∃ id t, Dialogue.Focusing d.scheduler d.reveal d.focus id t
  ears : (S.prospect d.outside).ears = 1
  shows : ∃ bs : List Button, bs.length ≤ S.slots ∧ (S.prospect d.outside).Shows bs

/-- What is asked of a wiring in the chamber. -/
structure Fits [Clock τ] (w : Wiring τ ω) : Prop where
  runs : S.table.Runs w.manner.interval
  slots : ∀ o, S.ok o → w.stage.slots o = .count S.slots
  sound : S.named w.manner.sound
  texts : ∀ name, S.named (.str name)
  perform : ∀ c o, S.ok o → S.Allows c → ∃ o' e, w.stage.perform c o = (o', e) ∧
    S.Keeps (·.after c) o o' ∧ (e = none ∨ S.frail ∧ c.isImage = true)
  report : ∀ e o, S.ok o → S.Keeps id o (w.stage.report e o)
  publish : ∀ n d, n.topic.isNovel = true → S.ok d.outside →
    ∃ o', w.publish n d = { d with outside := o' } ∧ S.Keeps (·.told n) d.outside o'
  listen : ∀ o, S.ok o → ∃ o', w.listen o = (o', none) ∧
    S.Keeps (fun p => { p with ears := p.ears + 1 }) o o'
  unlisten : ∀ o, S.ok o → S.Keeps (fun p => { p with ears := 0 }) o (w.unlisten o)
  focusStart : ∀ o, S.ok o → S.Keeps Prospect.atStart o (w.focusStart o)

variable {S}

/-! ## Changes outside -/

theorem Keeps.trans {f g : Prospect → Prospect} {o o' o'' : ω} (h : S.Keeps f o o')
    (h' : S.Keeps g o' o'') : S.Keeps (g ∘ f) o o'' :=
  ⟨h'.1, h'.2.trans (congrArg g h.2)⟩

variable {d : Dialogue τ Unit ω} {o : ω}

theorem Sane.outside (h : S.Sane d) (ho : S.ok o) : S.Sane { d with outside := o } :=
  ⟨ho, h.orderly, h.time, h.revealed⟩

theorem Doing.outside (h : S.Doing d) (o : ω) : S.Doing { d with outside := o } := by
  cases h with
  | away active revealing skip pending free => exact .away active revealing skip pending free
  | reading active revealing phase pending task =>
    exact .reading active revealing phase pending task
  | offering active revealing skip phase some pending tasks =>
    exact .offering active revealing skip phase some pending tasks
  | waiting active revealing skip pending phase free =>
    exact .waiting active revealing skip pending phase free

/-- What a dialogue is doing is the same in any chamber with as much room. -/
theorem Doing.recast {S' : Chamber τ ω} (h : S.Doing d) (hslots : S'.slots = S.slots)
    (hfrail : S.frail → S'.frail) : S'.Doing d := by
  cases h with
  | away active revealing skip pending free => exact .away active revealing skip pending free
  | reading active revealing phase pending task =>
    exact .reading active revealing phase pending task
  | offering active revealing skip phase some pending tasks =>
    exact .offering active revealing skip phase some (hslots ▸ pending) tasks
  | waiting active revealing skip pending phase free =>
    exact .waiting active revealing skip pending
      (phase.imp (fun h => hslots ▸ h) fun h => ⟨hfrail h.1, h.2⟩) free

theorem Kept.outside (h : S.Kept d) (ho : S.ok o)
    (hshows : (S.prospect o).Shows (d.session.pending.map Button.ofChoice))
    (hears : (S.prospect o).ears = (S.prospect d.outside).ears) : S.Kept { d with outside := o } :=
  ⟨h.toSane.outside ho, hshows, hears.trans h.ears, h.story, h.doing.outside o⟩

/-- Surroundings with the same prospect make no difference. -/
theorem Kept.keeps (h : S.Kept d) (ho : S.Keeps id d.outside o) : S.Kept { d with outside := o } :=
  h.outside ho.1 (by rw [show S.prospect o = S.prospect d.outside from ho.2]; exact h.shows)
    (by rw [show S.prospect o = S.prospect d.outside from ho.2])

/-! ## Changes of the scheduler -/

theorem due_follows {s s' : Scheduler τ (Activity Unit)} (hf : s.Follows s') :
    S.Due s' = S.Due s := by
  unfold Due
  rw [hf.time, hf.tick]

theorem Sane.follow (h : S.Sane d) {s : Scheduler τ (Activity Unit)}
    (ho : s.Orderly (S.Due d.scheduler)) (hf : d.scheduler.Follows s) :
    S.Sane { d with scheduler := s } :=
  ⟨h.ok, (due_follows (S := S) hf).symm ▸ ho, hf.time ▸ h.time, h.revealed⟩

theorem Doing.reschedule (h : S.Doing d) {s : Scheduler τ (Activity Unit)}
    (ha : Dialogue.Alike d.scheduler s) : S.Doing { d with scheduler := s } := by
  have htasks (h : Dialogue.Free d.scheduler d.reveal d.focus ∨
      ∃ id t, Dialogue.Focusing d.scheduler d.reveal d.focus id t) :
      Dialogue.Free s d.reveal d.focus ∨ ∃ id t, Dialogue.Focusing s d.reveal d.focus id t := by
    rcases h with hfree | ⟨id, t, hf⟩
    · exact Or.inl (hfree.alike ha)
    · exact Or.inr ⟨id, t, hf.alike ha⟩
  cases h with
  | away active revealing skip pending free =>
    exact .away active revealing skip pending (free.alike ha)
  | reading active revealing phase pending task =>
    obtain ⟨id, t, ht⟩ := task
    exact .reading active revealing phase pending ⟨id, t, ht.alike ha⟩
  | offering active revealing skip phase some pending tasks =>
    exact .offering active revealing skip phase some pending (htasks tasks)
  | waiting active revealing skip pending phase free =>
    exact .waiting active revealing skip pending phase (free.alike ha)

/-- A scheduler with the same tasks of the dialogue's own makes no difference. -/
theorem Kept.reschedule (h : S.Kept d) {s : Scheduler τ (Activity Unit)} (ho : s.Orderly (S.Due s))
    (ht : S.table.reading s.time) (ha : Dialogue.Alike d.scheduler s) :
    S.Kept { d with scheduler := s } :=
  ⟨⟨h.ok, ho, ht, h.revealed⟩, h.shows, h.ears, h.story, h.doing.reschedule ha⟩

/-- A task that is over may be noted as the one that reveals the line. -/
theorem Kept.note (h : S.Kept d) (hr : d.session.revealing = false) {id : TaskId}
    (ho : d.scheduler.IsOver id) : S.Kept { d with reveal := some id } := by
  have hspent : Dialogue.Spent d.scheduler (some id) := fun i hi => by
    cases hi
    exact ho
  have hfree (h : Dialogue.Free d.scheduler d.reveal d.focus) :
      Dialogue.Free d.scheduler (some id) d.focus := ⟨h.none, hspent, h.focus⟩
  refine ⟨⟨h.ok, h.orderly, h.time, h.revealed⟩, h.shows, h.ears, h.story, ?_⟩
  cases h.doing with
  | away active revealing skip pending free =>
    exact .away active revealing skip pending (hfree free)
  | reading active revealing =>
    rw [hr] at revealing
    cases revealing
  | offering active revealing skip phase some pending tasks =>
    refine .offering active revealing skip phase some pending ?_
    rcases tasks with free | ⟨i, t, hf⟩
    · exact Or.inl (hfree free)
    · exact Or.inr ⟨i, t, hf.noted, hf.waits, hf.rest, hf.only, hspent⟩
  | waiting active revealing skip pending phase free =>
    exact .waiting active revealing skip pending phase (hfree free)

/-- A dialogue has at most one task of its own. -/
theorem Doing.settled (h : S.Doing d) : Dialogue.Settled d.scheduler d.reveal d.focus := by
  cases h with
  | away _ _ _ _ free | waiting _ _ _ _ _ free => exact Or.inl free
  | reading _ _ _ _ task =>
    obtain ⟨id, t, ht⟩ := task
    exact Or.inr (Or.inl ⟨_, id, t, ht⟩)
  | offering _ _ _ _ _ _ tasks => exact tasks.imp_right Or.inr

theorem Poised.settled {p : Story.Player} (h : S.Poised p d) :
    Dialogue.Settled d.scheduler d.reveal d.focus := h.tasks.imp_right Or.inr

theorem Poised.storyChoices {p : Story.Player} (h : S.Poised p d) :
    d.storyChoices = p.choices := by
  unfold Dialogue.storyChoices
  rw [h.story]
  rfl

/-- A dialogue that waits to be advanced is about to go on. -/
theorem Kept.poised (h : S.Kept d) (hact : d.session.active = true)
    (hr : d.session.revealing = false) (hp : d.session.pending = []) : ∃ p, S.Poised p d := by
  obtain ⟨p, hstory⟩ := h.story hact
  have hshows := h.shows
  rw [hp] at hshows
  have hears := h.ears
  rw [hact] at hears
  refine ⟨p, h.toSane, hact, hr, ?_, hp, hstory, ?_, hears, [], Nat.zero_le _, hshows⟩
  · cases h.doing with
    | away active => rw [hact] at active; cases active
    | reading _ revealing => rw [hr] at revealing; cases revealing
    | offering _ _ _ _ some => exact absurd hp some
    | waiting _ _ skip => exact skip
  · cases h.doing with
    | away active => rw [hact] at active; cases active
    | reading _ revealing => rw [hr] at revealing; cases revealing
    | offering _ _ _ _ some => exact absurd hp some
    | waiting _ _ _ _ _ free => exact Or.inl free

/-- A dialogue in which somebody asked for a skip while a line is being revealed. -/
theorem Kept.skipping (h : S.Kept d) (hr : d.session.revealing = true) :
    S.Kept (d.withSession fun s => { s with skip := true }) := by
  refine ⟨⟨h.ok, h.orderly, h.time, h.revealed⟩, h.shows, h.ears, h.story, ?_⟩
  cases h.doing with
  | away _ revealing | offering _ revealing | waiting _ revealing =>
    rw [hr] at revealing
    cases revealing
  | reading active revealing phase pending task =>
    exact .reading active revealing phase pending task

/-! ## Calls and reports -/

variable [Clock τ] {w : Wiring τ ω}

theorem Fits.perform_eq (hw : S.Fits w) (ho : S.ok d.outside) (c : Call)
    (hc : S.Allows c) (hi : c.isImage = false) :
    ∃ o', d.perform w.stage c = ({ d with outside := o' }, none) ∧
      S.Keeps (·.after c) d.outside o' := by
  obtain ⟨o', e, hp, hk, he⟩ := hw.perform c d.outside ho hc
  have hnone : e = none := by
    rcases he with he | ⟨-, he⟩
    · exact he
    · rw [hi] at he
      cases he
  subst hnone
  refine ⟨o', ?_, hk⟩
  unfold Dialogue.perform Dialogue.attempt
  rw [hp]

/-- A call that shows no image and does not touch the panel makes no difference. -/
theorem Fits.perform_same (hw : S.Fits w) (ho : S.ok d.outside) {c : Call} (hc : S.Allows c)
    (hi : c.isImage = false) (hp : c.onPanel = false) :
    ∃ o', d.perform w.stage c = ({ d with outside := o' }, none) ∧ S.Keeps id d.outside o' := by
  obtain ⟨o', he, hok, hprospect⟩ := hw.perform_eq ho c hc hi
  exact ⟨o', he, hok, hprospect.trans (Prospect.after_eq_self hp _)⟩

theorem Fits.reportAll_eq (hw : S.Fits w) (es : List Log.Entry) {d : Dialogue τ Unit ω}
    (ho : S.ok d.outside) :
    ∃ o', d.reportAll w.stage es = { d with outside := o' } ∧ S.Keeps id d.outside o' := by
  induction es generalizing d with
  | nil => exact ⟨d.outside, rfl, ho, rfl⟩
  | cons e es ih =>
    have hk := hw.report e d.outside ho
    obtain ⟨o', he, hk'⟩ := ih (d := d.report w.stage e) hk.1
    exact ⟨o', he, hk.trans hk'⟩

end Chamber
end VisualNovel
