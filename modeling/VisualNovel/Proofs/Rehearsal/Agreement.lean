import VisualNovel.Proofs.Rehearsal.Runs
/-!
# Agreement

A dialogue keeps the same facts in its session, in the tasks of its scheduler and in the
subscriptions of its bus. In a calm rehearsal they agree after every command
(`commands_keep_agreement`).
-/
namespace VisualNovel

/-! ## The tasks that are not done -/

theorem Scheduler.mem_active {τ β : Type} {s : Scheduler τ β} {t : Task τ β} :
    t ∈ s.active ↔ ∃ id ∈ s.live, s.task? id = some t ∧ t.done = false := by
  unfold active
  simp only [List.mem_filterMap, Option.filter_eq_some_iff, Bool.not_eq_true']

namespace Dialogue
variable {τ ω : Type} {S : Venue τ ω} {d : Dialogue τ Unit ω}

/-- A task of a resting dialogue that is not done waits, and is called what it should be. -/
theorem Resting.named (h : Resting S d) {name : Json} (hn : name ∈ d.taskNames) :
    ∃ id t rest, d.scheduler.task? id = some t ∧ t.left? = some rest ∧ name = rest.label := by
  obtain ⟨t, ht, rfl⟩ := List.mem_map.1 hn
  obtain ⟨id, -, htask, hd⟩ := Scheduler.mem_active.1 ht
  obtain ⟨rest, hl, ⟨-, hname⟩, -⟩ := h.waits htask hd
  exact ⟨id, t, rest, htask, hl, hname⟩

/-- In a resting dialogue a task is called a reveal if and only if a line is being revealed. -/
theorem Resting.reveal_line (h : Resting S d) :
    .str "reveal_line" ∈ d.taskNames ↔ d.session.revealing = true := by
  refine ⟨fun hn => ?_, fun hr => ?_⟩
  · obtain ⟨id, t, rest, ht, hl, hname⟩ := h.named hn
    cases rest with
    | focusChoice | focusStart => simp [Activity.label] at hname
    | reveal text after =>
      rcases own_cases h.steady (Scheduler.waits?_eq_some.2 ⟨ht, _, hl, rfl⟩) with ⟨hr, -⟩ | ⟨-, hf⟩
      · exact hr
      · have hb := (Task.left?_eq_some.1 hl).1
        rw [hf.rest] at hb
        cases hb
  · obtain ⟨id, t, hrev⟩ := h.steady.reveals hr
    obtain ⟨ht, rest, hl, -⟩ := Scheduler.waits?_eq_some.1 hrev.waits
    obtain ⟨hb, hd⟩ := Task.left?_eq_some.1 hl
    obtain ⟨rest', hl', ⟨-, hname⟩, hlive⟩ := h.waits ht hd
    rw [hl] at hl'
    cases hl'
    rw [hrev.rest] at hb
    cases hb
    exact List.mem_map.2 ⟨t, Scheduler.mem_active.2 ⟨id, hlive, ht, hd⟩, hname⟩

/-- The note of the task that reveals the line is up to date. -/
theorem Resting.isRevealing (h : Resting S d) :
    d.isRevealing = true ↔ d.session.revealing = true := by
  unfold Dialogue.isRevealing
  refine ⟨fun hn => ?_, fun hr => ?_⟩
  · cases hr : d.session.revealing with
    | true => rfl
    | false =>
      have hspent : Spent d.scheduler d.reveal := by
        rcases h.steady.idles hr with hfree | ⟨id, t, hf⟩
        · exact hfree.reveal
        · exact hf.reveal
      cases hid : d.reveal with
      | none =>
        rw [hid] at hn
        cases hn
      | some id =>
        obtain ⟨t, ht, hd⟩ := hspent id hid
        simp [hid, Scheduler.isDone, ht, hd] at hn
  · obtain ⟨id, t, hrev⟩ := h.steady.reveals hr
    obtain ⟨ht, rest, hl, -⟩ := Scheduler.waits?_eq_some.1 hrev.waits
    simp [hrev.noted, Scheduler.isDone, ht, (Task.left?_eq_some.1 hl).2]

/-- In a calm venue a task is called a handover of the focus only while choices are on offer. -/
theorem Resting.focus_choice (h : Resting S d) (hcalm : S.calm)
    (hn : .str "focus_choice" ∈ d.taskNames) : d.session.phase = .awaitingChoice := by
  obtain ⟨id, t, rest, ht, hl, hname⟩ := h.named hn
  cases rest with
  | reveal | focusStart => simp [Activity.label] at hname
  | focusChoice =>
    exact (h.calm hcalm).focusing id t (Scheduler.waits?_eq_some.2 ⟨ht, _, hl, rfl⟩)
      (Task.left?_eq_some.1 hl).1

end Dialogue

/-! ## Agreement -/

namespace Rehearsal
variable {τ : Type}

/-- With `n` slots for choices, the session agrees with the tasks and with the bus. -/
structure Agrees (n : Nat) (d : Rehearsal τ) : Prop where
  running : d.session.active = true → d.session.phase = .revealing ∨
    d.session.phase = .awaitingChoice ∨ d.session.phase = .awaitingAdvance
  revealing : d.session.phase = .revealing ↔ d.session.revealing = true
  revealTask : d.session.revealing = true ↔ d.isRevealing = true
  revealName : d.session.revealing = true ↔ .str "reveal_line" ∈ d.taskNames
  awaits : d.session.phase = .awaitingChoice ↔ d.session.pending ≠ []
  pending : d.session.pending ≠ [] → d.session.pending = d.storyChoices.take n
  skip : d.session.skip = true → d.session.revealing = true
  revealed : d.session.revealed ≤ d.session.line.length
  focusTask : .str "focus_choice" ∈ d.taskNames → d.session.phase = .awaitingChoice
  resting : d.session.active = false →
    (d.session.phase = .idle ∨ d.session.phase = .ended) ∧ d.session.revealing = false ∧
      d.session.skip = false ∧ d.session.pending = [] ∧ d.isRevealing = false ∧
      .str "reveal_line" ∉ d.taskNames ∧ .str "focus_choice" ∉ d.taskNames
  listens : d.outside.ears = if d.session.active then 1 else 0

theorem agrees_of_rests {n : Nat} {reading : τ → Prop} {c : Course} {d : Rehearsal τ}
    (h : Dialogue.Resting (calmVenue n reading c) d) : Agrees n d := by
  have hcomp := h.calm trivial
  refine ⟨hcomp.running, h.steady.phase, h.isRevealing.symm, h.reveal_line.symm, hcomp.awaits,
    hcomp.pending, h.steady.skip, h.steady.revealed, h.focus_choice trivial, fun hoff => ?_,
    hcomp.ears⟩
  obtain ⟨hphase, hp, -⟩ := hcomp.resting hoff
  have hr : d.session.revealing = false := by
    rw [Bool.eq_false_iff]
    intro hr
    have hne := h.steady.phase.2 hr
    rcases hphase with hidle | hended
    · rw [hidle] at hne
      cases hne
    · rw [hended] at hne
      cases hne
  refine ⟨hphase, hr, h.steady.skip_false hr, hp, ?_, fun hn => ?_, fun hn => ?_⟩
  · rw [Bool.eq_false_iff, Ne, h.isRevealing, hr]
    exact Bool.false_ne_true
  · have := h.reveal_line.1 hn
    rw [hr] at this
    cases this
  · have hwait := h.focus_choice trivial hn
    rcases hphase with hidle | hended
    · rw [hidle] at hwait
      cases hwait
    · rw [hended] at hwait
      cases hwait

variable [Clock τ] {interval : τ} {reading : τ → Prop} {sound : Json}

/-- Whatever commands are given in a calm rehearsal, the session agrees with the tasks and with the
bus after each of them. -/
theorem commands_keep_agreement (hc : Clock.Runs interval reading) {n : Nat} {s : Stand τ}
    (hs : s.IsCalm n) {os : List (Order τ)} (hos : ∀ o ∈ os, o.isCommand) :
    Agrees n (rehearse interval sound os (opened s)) :=
  agrees_of_rests (rehearse_calm hc hs hos)

/-- A story with more choices than slots is begun, read, and broken off; a hook consumes its
line. -/
theorem agreement_of_a_visit :
    let story : Json := .obj [("nodes", .arr [.obj [("id", .str "hall"),
      ("lines", .arr [.obj [("text", .str "Hi!")]]),
      ("choices", .arr [.obj [("text", .str "Stay"), ("next", .str "hall")],
        .obj [("text", .str "Go"), ("next", .str "END")]])]])]
    let visit : List (Order Rat) := [.begin (.content story), .update 1 (.int 3), .advance,
      .choose (.int 0), .shutdown]
    let s : Stand Rat :=
      { slots := .count 1, hooks := [⟨.lineStarted, .int 0, 1, fun _ => [.consume]⟩] }
    s.IsCalm 1 ∧ (∀ o ∈ visit, o.isCommand) ∧ Agrees 1 (rehearse 1 .null visit (opened s)) := by
  intro story visit s
  have hs : s.IsCalm 1 := by
    refine ⟨⟨rfl, rfl, rfl, fun v hv => ?_, fun k hk => ?_⟩, fun k hk => ?_⟩
    · cases hv
    · cases List.mem_singleton.1 hk
      exact ⟨0, rfl, by decide⟩
    · cases List.mem_singleton.1 hk
      exact fun _ step hstep => List.mem_singleton.1 hstep
  have hvisit : ∀ o ∈ visit, o.isCommand := by simp [visit, Order.isCommand]
  exact ⟨hs, hvisit, commands_keep_agreement (Clock.runs_rat 1) hs hvisit⟩

end Rehearsal
end VisualNovel
