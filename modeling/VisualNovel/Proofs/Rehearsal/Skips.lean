import VisualNovel.Proofs.Rehearsal.Glimpses
import VisualNovel.Proofs.Rehearsal.Undisturbed
/-!
# Skips

A player may ask for a skip whenever a line is revealed, and any number of times. What was wished
for a line is followed along the orders to a calm rehearsal (`heard`, `wish`), and after each of them
the line stands as it was wished (`Heeds.execute`). The task that reveals it takes heed when it is
due: an update before that changes nothing that is seen (`Heeds.update_early`).

Results:
* `a_skip_is_for_one_line`: each line is shown to its end, with as many sounds as were wished for it,
  in the next update in which its task is due; the wish for one line is not kept for the next.
-/
namespace VisualNovel

namespace Rehearsal
open Dialogue (Reveals awaken)
variable {τ : Type} [Clock τ] {n : Nat} {c : Course} {reading : τ → Prop} {interval : τ}
  {sound : Json} {g : Glimpse} {d : Rehearsal τ}

/-! ## Orders -/

/-- A story that is begun sets its first line, or nothing changes that is seen. -/
theorem beginStory_onward (interval : τ) (sound : Json) (h : Looks n c g d)
    (hs : g.revealing = false → g.skip = false) (m : Material) : ∃ d' r,
      beginStory (wiring interval sound (Rehearsal.publish interval sound)) m d = (d', r) ∧
        Onward n c sound g (d', r.toOption.getD .done) := by
  unfold beginStory
  match m with
  | .content content => exact ⟨_, _, rfl, begin_onward h hs content⟩
  | .script (.str text) =>
    have hlogged := h.reportAll (Story.compile text).log
    simp only
    cases (Story.compile text).result with
    | error e => exact ⟨_, _, rfl, .inl hlogged⟩
    | ok graph => exact ⟨_, _, rfl, begin_onward hlogged hs graph.toJson⟩
  | .script .null | .script (.bool _) | .script (.int _) | .script (.real _) | .script (.arr _)
  | .script (.obj _) => exact ⟨_, _, rfl, .inl h⟩

omit [Clock τ] in
theorem Looks.told (h : Looks n c g d) : Looks n c g (d.withOutside (Stand.leave .ended)) := by
  obtain rfl := h.glimpse
  exact h.move ⟨h.sound.slots, h.sound.view, h.sound.listed, h.sound.leads⟩ h.hushed
    (Stand.page_leave_ended _)

omit [Clock τ] in
/-- The stories that are left are not seen. -/
theorem Looks.withEncores (h : Looks n c g d) {m : Material} {rest : List Material}
    (hm : d.outside.encores = m :: rest) :
    Looks n c g (d.withOutside fun s => { s with encores := rest }) := by
  have hleft : d.outside.backstage.encores ≠ [] := by
    rw [show d.outside.backstage.encores = m :: rest from hm]
    exact List.cons_ne_nil _ _
  exact ⟨⟨h.sound.slots, h.sound.view, h.sound.listed, h.sound.leads⟩,
    ⟨h.hushed.queue, h.hushed.delivering, h.hushed.noticesEnd, h.hushed.hooks,
      fun _ => h.hushed.encores hleft⟩, h.glimpse⟩

/-- An end that no other story follows is not seen. -/
theorem Looks.takeEnd (h : Looks n c g d) {fuel : Nat} (hend : d.outside.noticesEnd = false ∨
      fuel = 0 ∨ d.outside.encores = []) : Looks n c g
    (takeTurn (wiring interval sound (Rehearsal.publish interval sound)) fuel (d, .ended)).1 := by
  cases hn : d.outside.noticesEnd with
  | false =>
    rw [takeTurn_untold hn]
    exact h
  | true =>
    rw [takeTurn_told hn (hend.resolve_left (by simp [hn]))]
    exact h.told

omit [Clock τ] in
theorem Onward.done {t : Turn} (h : Onward n c sound g (d, t)) : Onward n c sound g (d, .done) :=
  h.imp_right fun hset => ⟨nofun, hset.2⟩

omit [Clock τ] in
/-- A command that ends a story has set no line. -/
theorem Onward.ended (h : Onward n c sound g (d, .ended)) : Looks n c g d :=
  h.resolve_right fun hset => hset.1 rfl

/-- The stories that follow an end set at most one line. -/
theorem takeTurn_onward (hs : g.revealing = false → g.skip = false) (fuel : Nat) {t : Turn}
    (h : Onward n c sound g (d, t)) : Onward n c sound g
      ((takeTurn (wiring interval sound (Rehearsal.publish interval sound)) fuel (d, t)).1,
        .done) := by
  -- By induction on the stories that may still be begun: each of them may end as it begins.
  induction fuel generalizing d t with
  | zero =>
    cases t with
    | ended => exact .inl (h.ended.takeEnd (.inr (.inl rfl)))
    | done | refused | unreadable | failed => exact h.done
  | succ fuel ih =>
    cases t with
    | ended =>
      cases hn : d.outside.noticesEnd with
      | false => exact .inl (h.ended.takeEnd (.inl hn))
      | true =>
        match hm : d.outside.encores with
        | [] => exact .inl (h.ended.takeEnd (.inr (.inr hm)))
        | m :: rest =>
          obtain ⟨d', r, he, honward⟩ :=
            beginStory_onward interval sound (h.ended.told.withEncores hm) hs m
          rw [takeTurn_encore hn hm he]
          cases r with
          | ok t => exact ih honward
          | error e => exact honward
    | done | refused | unreadable | failed => exact h.done

/-! ## Updates -/

/-- A calm rehearsal as a chamber in which a task may be due at any time. -/
abbrev calmChamber (n : Nat) (reading : τ → Prop) (c : Course) : Chamber τ (Stand τ) :=
  (calmVenue n reading c).chamber (.loose reading)

theorem loose_fits (sound : Json) (hc : Clock.Runs interval reading) :
    (calmChamber n reading c).Fits
      (wiring interval sound (Rehearsal.publish interval sound)) :=
  calm_fits sound hc (Timetable.loose_runs hc)

/-- A task that does not reveal the line changes nothing that is seen. -/
theorem Looks.resume_beside (h : Looks n c g d) {id : TaskId} {t : Task τ (Activity Unit)}
    {rest : Activity Unit} (ht : d.scheduler.task? id = some t) (hl : t.left? = some rest)
    (hrest : rest = .focusChoice ∨ rest = .focusStart) : Looks n c g
      ((Dialogue.host Stand.stage).resume (Dialogue.run
        (wiring interval sound (Rehearsal.publish interval sound))) id d).1 := by
  have hawake := h.tasks (awaken id d.scheduler) d.reveal d.focus
  refine Looks.resume ht hl ?_
  unfold Dialogue.run
  rcases hrest with rfl | rfl
  · rw [Dialogue.runTo_fst]
    exact hawake.perform_aside rfl
  · exact hawake

/-- The task that reveals the line is resumed. -/
theorem Looks.resume_reveal (h : Looks n c g d) {id : TaskId} {t : Task τ (Activity Unit)}
    (hrev : Reveals d.scheduler d.reveal d.focus d.session.line id t) : Looks n c (g.run sound)
      ((Dialogue.host Stand.stage).resume (Dialogue.run
        (wiring interval sound (Rehearsal.publish interval sound))) id d).1 := by
  obtain ⟨ht, rest, hl, -⟩ := Scheduler.waits?_eq_some.1 hrev.waits
  obtain ⟨hb, -⟩ := Task.left?_eq_some.1 hl
  rw [hrev.rest] at hb
  cases hb
  exact Looks.resume ht hl
    (Looks.runReveal interval sound (h.tasks (awaken id d.scheduler) d.reveal d.focus))

/-- A rehearsal that rests, in which a line stands as it was wished. -/
structure Heeds (n : Nat) (c : Course) (reading : τ → Prop) (sound : Json) (w : Wish)
    (d : Rehearsal τ) : Prop where
  rests : (calmChamber n reading c).Rests d
  looks : Looks n c d.glimpse d
  stands : d.glimpse.Stands sound w

omit [Clock τ] in
theorem Heeds.intro {w : Wish} (hrest : (calmChamber n reading c).Rests d) (hlooks : Looks n c g d)
    (hstands : g.Stands sound w) : Heeds n c reading sound w d := by
  obtain rfl := hlooks.glimpse
  exact ⟨hrest, hlooks, hstands⟩

section
variable {w : Wish} (hc : Clock.Runs interval reading) (h : Heeds n c reading sound w d)
include hc h

/-- Whatever task is resumed, the line stands as it was wished. -/
theorem Heeds.resume {id : TaskId} {t : Task τ (Activity Unit)}
    (ht : d.scheduler.task? id = some t) (hd : t.done = false)
    (hdue : d.scheduler.isDue t = true) :
    let d' := ((Dialogue.host Stand.stage).resume (Dialogue.run
      (wiring interval sound (Rehearsal.publish interval sound))) id d).1
    Heeds n c reading sound w d' ∧ d'.outside.page.lines = d.outside.page.lines := by
  intro d'
  have hrest : (calmChamber n reading c).Rests d' := by
    obtain ⟨d'', he, hrest, -⟩ := Dialogue.resume_kept (loose_fits sound hc) h.rests ht hd hdue
    rw [show d' = d'' from congrArg Prod.fst he]
    exact hrest
  have hbeside (hlooks : Looks n c d.glimpse d') :
      Heeds n c reading sound w d' ∧ d'.outside.page.lines = d.outside.page.lines :=
    ⟨.intro hrest hlooks h.stands, congrArg (·.page.lines) hlooks.glimpse⟩
  obtain ⟨rest, hl, -, -⟩ := Dialogue.rests_waits h.rests ht hd
  by_cases hown : rest.isOwn = true
  · rcases Dialogue.own_of_kept h.rests.toKept (Scheduler.waits?_eq_some.2 ⟨ht, rest, hl, hown⟩)
      with ⟨hr, hrev⟩ | ⟨-, hfocus⟩
    · have hlooks : Looks n c (d.glimpse.run sound) d' := h.looks.resume_reveal hrev
      refine ⟨.intro hrest hlooks (h.stands.run hr h.rests.revealed), ?_⟩
      exact (congrArg (·.page.lines) hlooks.glimpse).trans (Glimpse.lines_run sound d.glimpse)
    · refine hbeside (h.looks.resume_beside ht hl (Or.inl ?_))
      have hb := (Task.left?_eq_some.1 hl).1
      rw [hfocus.rest] at hb
      cases hb
      rfl
  · refine hbeside (h.looks.resume_beside ht hl (Or.inr ?_))
    cases rest with
    | reveal | focusChoice => exact absurd rfl hown
    | focusStart => rfl

/-- Behind an update the line stands as it was wished, and no line was set. -/
theorem Heeds.update (dt : τ) :
    let d' := (d.update (wiring interval sound (Rehearsal.publish interval sound)) dt).1
    Heeds n c reading sound w d' ∧ d'.outside.page.lines = d.outside.page.lines := by
  have hkept := Host.update_keeps (Dialogue.host Stand.stage)
    (Dialogue.run (wiring interval sound (Rehearsal.publish interval sound)))
    (J := fun e => Heeds n c reading sound w e ∧ e.outside.page.lines = d.outside.page.lines)
    Activity.rounds dt ⟨h, rfl⟩
    (fun time hadd => ⟨⟨Dialogue.pass_kept (loose_fits sound hc) h.rests trivial hadd,
      h.looks.tasks _ d.reveal d.focus, h.stands⟩, rfl⟩)
    (fun e id t he ht hd hdue => by
      obtain ⟨hheeds, hlines⟩ := he.1.resume hc ht hd hdue
      exact ⟨hheeds, hlines.trans he.2⟩)
    fun e he => ⟨⟨Dialogue.sweep_kept (w := wiring interval sound
      (Rehearsal.publish interval sound)) he.1.rests, he.1.looks.tasks _ e.reveal e.focus,
        he.1.stands⟩, he.2⟩
  exact hkept

/-- Behind any number of updates as well. -/
theorem Heeds.updateTimes (dt : τ) (times : Json) :
    let d' := (updateTimes (wiring interval sound (Rehearsal.publish interval sound)) dt times d).1
    Heeds n c reading sound w d' ∧ d'.outside.page.lines = d.outside.page.lines := by
  unfold Rehearsal.updateTimes
  match times.count with
  | .error e => exact ⟨h, rfl⟩
  | .ok count =>
    have hstep (e : Rehearsal τ)
        (hJ : Heeds n c reading sound w e ∧ e.outside.page.lines = d.outside.page.lines) :
        ∃ e' f?, e.update (wiring interval sound (Rehearsal.publish interval sound)) dt = (e', f?) ∧
          (Heeds n c reading sound w e' ∧ e'.outside.page.lines = d.outside.page.lines) ∧
            ∀ f, f? = some f → True := by
      obtain ⟨hheeds, hlines⟩ := hJ.1.update hc dt
      exact ⟨_, _, rfl, ⟨hheeds, hlines.trans hJ.2⟩, fun _ _ => trivial⟩
    obtain ⟨d', e?, he, hJ, -⟩ := times_keeps hstep count.toNat ⟨h, rfl⟩
    simp only [he]
    exact hJ

end

/-! ## Wishes -/

/-- What a player wishes who gives an order in a state: the first signal while a line is revealed
asks for a skip. -/
def heard (o : Order τ) (d : Rehearsal τ) (w : Wish) : Wish :=
  match o with
  | .shutdown => .idle
  | .advance => if d.session.revealing then w.hastened d.session.revealed else w
  | _ => w

/-- What a player wishes after an order that led from one state to another: a line that was
announced begins with patience. -/
def wishAfter (o : Order τ) (d d' : Rehearsal τ) (w : Wish) : Wish :=
  if d.outside.page.lines < d'.outside.page.lines then .patient else heard o d w

/-- What a player wishes after orders, who wished for `w` before them. -/
def wish (interval : τ) (sound : Json) : List (Order τ) → Rehearsal τ → Wish → Wish
  | [], _, w => w
  | o :: os, d, w =>
    let d' := (execute interval sound o d).1
    wish interval sound os d' (wishAfter o d d' w)

section
variable {w : Wish}

omit [Clock τ] in
/-- When nothing that is seen has changed but for what was heard, that is what is wished. -/
theorem Heeds.heard {o : Order τ} {d' : Rehearsal τ} (hrest : (calmChamber n reading c).Rests d')
    (hlooks : Looks n c g d') (hstands : g.Stands sound (heard o d w))
    (hlines : g.page.lines = d.outside.page.lines) :
    Heeds n c reading sound (wishAfter o d d' w) d' := by
  obtain rfl := hlooks.glimpse
  have hsame : wishAfter o d d' w = Rehearsal.heard o d w :=
    if_neg (Nat.not_lt_of_le (Nat.le_of_eq hlines))
  rw [hsame]
  exact ⟨hrest, hlooks, hstands⟩

variable (h : Heeds n c reading sound w d)
include h

omit [Clock τ] in
theorem Heeds.skip (hr : d.session.revealing = false) : d.session.skip = false := h.stands.skip hr

omit [Clock τ] in
/-- When nothing that is seen has changed, or a line was set, that is what is wished. -/
theorem Heeds.onward {o : Order τ} {d' : Rehearsal τ} (hrest : (calmChamber n reading c).Rests d')
    (honward : Onward n c sound d.glimpse (d', .done)) (hheard : Rehearsal.heard o d w = w) :
    Heeds n c reading sound (wishAfter o d d' w) d' := by
  rcases honward with hlooks | ⟨-, g', hlooks, hlt, hstands⟩
  · have hstands : d.glimpse.Stands sound (Rehearsal.heard o d w) := by
      rw [hheard]
      exact h.stands
    exact .heard hrest hlooks hstands rfl
  · obtain rfl := hlooks.glimpse
    have hset : wishAfter o d d' w = .patient := if_pos hlt
    rw [hset]
    exact ⟨hrest, hlooks, hstands⟩

omit [Clock τ] in
/-- A line is revealed by a task of a story that is under way. -/
theorem Heeds.task (hr : d.session.revealing = true) : d.session.active = true ∧
    ∃ id t, Reveals d.scheduler d.reveal d.focus d.session.line id t := by
  cases h.rests.doing with
  | reading active _ _ _ task => exact ⟨active, task⟩
  | away _ revealing | offering _ revealing | waiting _ revealing =>
    rw [hr] at revealing
    cases revealing

/-- The player's signal asks for a skip while a line is revealed, and for nothing else. -/
theorem Heeds.signal (interval : τ) (hr : d.session.revealing = true) :
    execute interval sound .advance d =
      (d.withSession fun s => { s with skip := true }, .none) := by
  unfold Rehearsal.execute carryOut
  simp only [Dialogue.advance, (h.task hr).1, hr, Bool.not_true, Bool.false_eq_true, if_false,
    if_true, conclude_nothing]

variable (hc : Clock.Runs interval reading)
include hc

/-- After an order the line stands as it is wished. -/
theorem Heeds.execute {o : Order τ} (ho : o.isCommand) : Heeds n c reading sound
    (wishAfter o d (execute interval sound o d).1 w) (execute interval sound o d).1 := by
  have hrest : (calmChamber n reading c).Rests (Rehearsal.execute interval sound o d).1 :=
    command_kept (loose_fits sound hc) calm_owned ho (by cases o <;> trivial) h.rests
  cases o with
  | advance =>
    cases hr : d.session.revealing with
    | false =>
      refine h.onward hrest (takeTurn_onward h.skip _ (advance_onward h.looks hr (h.skip hr))) ?_
      unfold Rehearsal.heard
      rw [hr]
      rfl
    | true =>
      have hlooks : Looks n c { d.glimpse with skip := true }
          (d.withSession fun s => { s with skip := true }) :=
        ⟨h.looks.sound, h.looks.hushed, rfl⟩
      have hheard : Rehearsal.heard .advance d w = w.hastened d.session.revealed := if_pos hr
      rw [h.signal interval hr] at hrest ⊢
      exact .heard hrest hlooks (hheard ▸ h.stands.hasten hr) rfl
  | begin m =>
    refine h.onward hrest ?_ rfl
    obtain ⟨d', r, he, honward⟩ := beginStory_onward interval sound h.looks h.skip m
    unfold Rehearsal.execute carryOut
    simp only [he]
    cases r with
    | ok t => exact takeTurn_onward h.skip _ honward
    | error e => exact honward
  | goOn => exact h.onward hrest (takeTurn_onward h.skip _ (continueStory_onward h.looks h.skip)) rfl
  | choose index =>
    exact h.onward hrest (takeTurn_onward h.skip _ (choose_onward h.looks h.skip index)) rfl
  | update dt times =>
    obtain ⟨hheeds, hlines⟩ := h.updateTimes hc dt times
    exact .heard hrest hheeds.looks hheeds.stands hlines
  | shutdown =>
    have hlooks := h.looks.unlisten.cancelReveal.cancelFocus
    have hreset : Looks n c { d.glimpse with revealing := false, skip := false }
        (Rehearsal.execute interval sound .shutdown d).1 := by
      refine ⟨hlooks.sound, hlooks.hushed, ?_⟩
      rw [← hlooks.glimpse]
      rfl
    exact .heard hrest hreset (.idle rfl rfl) rfl
  | act | move => exact ho.elim

end

/-- Before the task that reveals the line is due, an update changes nothing that is seen. -/
theorem Heeds.update_early {w : Wish} (hc : Clock.Runs interval reading)
    (h : Heeds n c reading sound w d) {id : TaskId} {t : Task τ (Activity Unit)} {dt time : τ}
    (hrev : Reveals d.scheduler d.reveal d.focus d.session.line id t)
    (hadd : Clock.add d.scheduler.time dt = .ok time)
    (hearly : ({ d.scheduler with time, tick := d.scheduler.tick + 1 } :
      Scheduler τ (Activity Unit)).isDue t = false) :
    ∃ d', d.update (wiring interval sound (Rehearsal.publish interval sound)) dt = (d', none) ∧
      Looks n c d.glimpse d' ∧ Reveals d'.scheduler d'.reveal d'.focus d.session.line id t := by
  obtain ⟨d', hupdate, -, hlooks, hrev', -⟩ := Host.update_carries (Dialogue.host Stand.stage)
    (Dialogue.run (wiring interval sound (Rehearsal.publish interval sound)))
    (J := fun e => (calmChamber n reading c).Rests e ∧ Looks n c d.glimpse e ∧
      Reveals e.scheduler e.reveal e.focus d.session.line id t ∧ e.scheduler.isDue t = false)
    Activity.rounds hadd
    ⟨Dialogue.pass_kept (loose_fits sound hc) h.rests trivial hadd,
      h.looks.tasks _ d.reveal d.focus, hrev.alike ⟨fun _ => rfl, fun _ h => h⟩, hearly⟩
    (fun e j u hJ hu hd hdue => by
      obtain ⟨hrest, hlooks, hrev, hearly⟩ := hJ
      obtain ⟨rest, hl, -, -⟩ := Dialogue.rests_waits hrest hu hd
      have hforeign : ¬rest.isOwn = true := by
        intro hown
        obtain ⟨-, rfl⟩ := hrev.unique (Scheduler.waits?_eq_some.2 ⟨hu, rest, hl, hown⟩)
        rw [show e.scheduler.isDue u = true from hdue] at hearly
        cases hearly
      cases rest with
      | reveal | focusChoice => exact absurd rfl hforeign
      | focusStart =>
        obtain ⟨s, hs, hrest', halike, htime, htick, -⟩ :=
          Dialogue.resume_start (loose_fits sound hc) hrest hu hl
        refine ⟨_, hs, hrest', hlooks.tasks s e.reveal e.focus, hrev.alike halike, ?_⟩
        unfold Scheduler.isDue at hearly ⊢
        rw [htime, htick]
        exact hearly)
    fun e hJ => ⟨Dialogue.sweep_kept (w := wiring interval sound
      (Rehearsal.publish interval sound)) hJ.1, hJ.2.1.tasks _ e.reveal e.focus,
        hJ.2.2.1.alike ⟨fun _ => rfl, fun _ h => h⟩, hJ.2.2.2⟩
  exact ⟨d', congrArg (Attempt.mapError Fault.misfit) hupdate, hlooks, hrev'⟩

/-- In an update in which the task that reveals the line is due, the line is completed if a skip was
asked for. -/
theorem Heeds.update_due {w : Wish} (hc : Clock.Runs interval reading)
    (h : Heeds n c reading sound w d) (hr : d.session.revealing = true)
    (hskip : d.session.skip = true) {id : TaskId} {t : Task τ (Activity Unit)} {dt time : τ}
    (hrev : Reveals d.scheduler d.reveal d.focus d.session.line id t)
    (hadd : Clock.add d.scheduler.time dt = .ok time)
    (hdue : ({ d.scheduler with time, tick := d.scheduler.tick + 1 } :
      Scheduler τ (Activity Unit)).isDue t = true) :
    ∃ d', d.update (wiring interval sound (Rehearsal.publish interval sound)) dt = (d', none) ∧
      d'.session.line = d.session.line ∧ d'.session.revealing = false := by
  obtain ⟨p, hp⟩ := h.rests.story (h.task hr).1
  obtain ⟨d', hupdate, hfinished⟩ := Dialogue.update_completes (loose_fits sound hc) h.rests trivial
    hadd hskip hr hp hrev hdue
  exact ⟨d', hupdate, hfinished.line, hfinished.revealing⟩

/-! ## Runs -/

/-- In a rehearsal that was just opened nothing is wished. -/
theorem opened_heeds (sound : Json) (hc : Clock.Runs interval reading) {s : Stand τ}
    (hs : s.IsCalm n) :
    Heeds n ⟨none, s.noticesEnd.toNat⟩ reading sound .idle (opened s) := by
  have hrest : (calmChamber n reading ⟨none, s.noticesEnd.toNat⟩).Rests (opened s) :=
    opened_kept (Timetable.loose_runs hc) hs rfl fun _ => rfl
  exact ⟨hrest, ⟨hrest.ok.1, hrest.ok.2, rfl⟩, .idle rfl rfl⟩

/-- After any orders a line stands as it is wished. -/
theorem wish_heeds {w : Wish} (hc : Clock.Runs interval reading) {os : List (Order τ)}
    (hos : ∀ o ∈ os, o.isCommand) (h : Heeds n c reading sound w d) :
    Heeds n c reading sound (wish interval sound os d w) (rehearse interval sound os d) := by
  induction os generalizing d w with
  | nil => exact h
  | cons o os ih =>
    obtain ⟨ho, hos⟩ := List.forall_mem_cons.1 hos
    exact ih hos (h.execute hc ho)

/-- A second signal changes nothing, and neither does an update before the task is due that reveals
the line; the update in which it is due completes the line. -/
def CompletesWhenDue (interval : τ) (sound : Json) (w : Wish) (d : Rehearsal τ) : Prop :=
  execute interval sound .advance d = (d, .none) ∧
  ∃ id t, d.reveal = some id ∧ d.scheduler.task? id = some t ∧ t.done = false ∧
    ∀ dt time, Clock.add d.scheduler.time dt = .ok time →
      ∃ d' : Rehearsal τ,
        d.update (wiring interval sound (Rehearsal.publish interval sound)) dt = (d', none) ∧
        if ({ d.scheduler with time, tick := d.scheduler.tick + 1 } :
          Scheduler τ (Activity Unit)).isDue t then
          d'.session.line = d.session.line ∧ d'.session.revealing = false ∧
            d'.glimpse.Stands sound w
        else d'.glimpse = d.glimpse ∧ d'.reveal = some id ∧ d'.scheduler.task? id = some t

theorem Heeds.completesWhenDue {w : Wish} (hc : Clock.Runs interval reading)
    (h : Heeds n c reading sound w d) (hr : d.session.revealing = true)
    (hskip : d.session.skip = true) : CompletesWhenDue interval sound w d := by
  obtain ⟨-, id, t, hrev⟩ := h.task hr
  obtain ⟨ht, rest, hl, -⟩ := Scheduler.waits?_eq_some.1 hrev.waits
  refine ⟨?_, id, t, hrev.noted, ht, (Task.left?_eq_some.1 hl).2, fun dt time hadd => ?_⟩
  · have hsame : { d.session with skip := true } = d.session := by rw [← hskip]
    rw [h.signal interval hr]
    exact congrArg (fun session => (({ d with session } : Rehearsal τ), Answer.none)) hsame
  · split
    · next hdue =>
      obtain ⟨d', hupdate, hline, hover⟩ := h.update_due hc hr hskip hrev hadd hdue
      have hheeds := (h.update hc dt).1
      rw [hupdate] at hheeds
      exact ⟨d', hupdate, hline, hover, hheeds.stands⟩
    · next hearly =>
      obtain ⟨d', hupdate, hlooks, hrev'⟩ := h.update_early hc hrev hadd (Bool.eq_false_iff.2 hearly)
      exact ⟨d', hupdate, hlooks.glimpse, hrev'.noted, (Scheduler.waits?_eq_some.1 hrev'.waits).1⟩

/-- Whatever the player asks for, and however often: in the end all characters of a line are shown,
and behind the sounds of its tags as many sounds were played as characters were shown when the first
skip was asked for, or as there are if none was; a line that was just announced is shown with
patience again. A line that is to be hurried is complete in the next update in which its task is due,
and not before; to ask again changes nothing. -/
theorem a_skip_is_for_one_line (hc : Clock.Runs interval reading) {s : Stand τ} (hs : s.IsCalm n)
    {os : List (Order τ)} (hos : ∀ o ∈ os, o.isCommand) :
    let d := rehearse interval sound os (opened s)
    let w := wish interval sound os (opened s) .idle
    let total := d.session.line.length
    d.glimpse.Stands sound w ∧
      (w ≠ .idle → d.session.revealing = false → d.glimpse.Shows sound total (w.cues total)) ∧
      (d.session.revealing = true → d.session.skip = true →
        CompletesWhenDue interval sound w d) := by
  intro d w total
  have h : Heeds n ⟨none, s.noticesEnd.toNat⟩ reading sound w d :=
    wish_heeds hc hos (opened_heeds sound hc hs)
  exact ⟨h.stands, fun hw hr => h.stands.shows hw hr, fun hr hskip => h.completesWhenDue hc hr hskip⟩

/-- On a view, the first line of a tale is hurried on, and so is the second one, when two of its
characters are shown. -/
theorem a_skip_for_each_line :
    let v : View := { width := .int 800, height := .int 600, slots := .count 1 }
    let s : Stand Rat := { slots := .count 1, view := some v }
    let visit : List (Order Rat) := [.begin (.content (tale ["Well!", "Hmm."])), .advance,
      .update 1 (.int 1), .advance, .update 1 (.int 1), .advance, .advance]
    s.IsCalm 1 ∧ (∀ o ∈ visit, o.isCommand) ∧
      wish 1 .null visit (opened s) .idle = .hasty 2 ∧
      (rehearse 1 .null visit (opened s)).glimpse.Stands .null (.hasty 2) ∧
      CompletesWhenDue 1 .null (.hasty 2) (rehearse 1 .null visit (opened s)) := by
  intro v s visit
  have hs : s.IsCalm 1 := by
    refine ⟨⟨rfl, rfl, rfl, fun u hu => ?_, fun k hk => ?_⟩, fun k hk => ?_⟩
    · cases hu
      rfl
    · cases hk
    · cases hk
  have hvisit : ∀ o ∈ visit, o.isCommand := by simp [visit, Order.isCommand]
  have hwish : wish 1 .null visit (opened s) .idle = .hasty 2 := by decide +kernel
  have hr : (rehearse 1 .null visit (opened s)).session.revealing = true := by decide +kernel
  have hskip : (rehearse 1 .null visit (opened s)).session.skip = true := by decide +kernel
  obtain ⟨hstands, -, hdue⟩ := a_skip_is_for_one_line (Clock.runs_rat 1) hs hvisit
  rw [hwish] at hstands hdue
  exact ⟨hs, hvisit, hwish, hstands, hdue hr hskip⟩

/-- With the next update the line is complete: two of its four characters were shown one by one. -/
example :
    let p := (rehearse 1 .null [.begin (.content (tale ["Hmm."])), .update 1 (.int 1), .advance,
      .update 1 (.int 1)] (opened ({ slots := .count 1 } : Stand Rat))).outside.page
    p.shown = 4 ∧ p.sounds = [.null, .null] := by
  decide +kernel

end Rehearsal
end VisualNovel
