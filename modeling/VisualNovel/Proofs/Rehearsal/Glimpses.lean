import VisualNovel.Proofs.Dialogue.Pages
import VisualNovel.Proofs.Rehearsal.Progress
/-!
# Glimpses of a rehearsal

What is seen of a line in a calm rehearsal (`Looks`), on a view or, if calls are only written down,
by what is written. A run of the task that reveals the line is a run of what is seen of it
(`Looks.runReveal`), and a command sets a line or changes nothing that is seen (`Onward`). All else
that is done, to offer choices, to publish another event or to end a story, is not seen.
-/
namespace VisualNovel

theorem Attempt.andThen_eq {σ ε : Type} {r : Attempt σ ε} (h : r.2 = none)
    (next : σ → Attempt σ ε) : r.andThen next = next r.1 := by
  obtain ⟨s, e⟩ := r
  cases h
  rfl

/-- What a step keeps, and the rest of a command behind it, the command keeps. -/
theorem Attempt.turn_keeps {P : σ → Prop} {r : Attempt σ Fault} {next : σ → σ × Turn} (hr : P r.1)
    (hn : ∀ s, P s → P (next s).1) : P (r.turn next).1 := by
  obtain ⟨s, e⟩ := r
  cases e with
  | none => exact hn s hr
  | some e => exact hr

/-! ## The page of a rehearsal -/

/-- The page with what a view shows on it. -/
def Page.on (v : View) (p : Page) : Page := { p with held := v.line, shown := v.visible }

theorem Page.hear_on (v : View) (p : Page) (n : Notice) : (p.on v).hear n = (p.hear n).on v := by
  unfold hear
  split <;> rfl

theorem Page.after_on (v : View) (p : Page) {c : Call} (h : c.isVisual = false) :
    (p.on v).after c = (p.after c).on v := by
  cases c <;> first | rfl | cases h

/-- A view shows what a call asks it for. -/
theorem View.perform_on {v v' : View} {c : Call} (hp : v.perform c = .ok v')
    (h : c.isVisual = true) (p : Page) : v'.slots = v.slots ∧ p.on v' = (p.on v).after c := by
  cases c with
  | choices offered =>
    change (v.slots.cut (offered.map Button.ofChoice)).map (hold · v) = .ok v' at hp
    cases hcut : v.slots.cut (offered.map Button.ofChoice) with
    | error e =>
      rw [hcut] at hp
      cases hp
    | ok held =>
      rw [hcut] at hp
      cases hp
      exact ⟨rfl, rfl⟩
  | visible count =>
    cases hp
    refine ⟨rfl, ?_⟩
    have hcount : (max 0 (min (count : Int) v.line.length)).toNat = min count v.line.length := by
      omega
    exact congrArg (fun shown => { p with held := v.line, shown }) hcount
  | hideChoices =>
    cases hp
    unfold hideChoices
    simp only
    split <;> exact ⟨rfl, rfl⟩
  | focus slot =>
    cases hp
    unfold focusChoice
    split <;> exact ⟨rfl, rfl⟩
  | line _ | name _ | clearFocus =>
    cases hp
    exact ⟨rfl, rfl⟩
  | play _ | stop _ | switchTheme _ | expression _ _ | splash _ => cases h

/-- Whether a call offers choices. -/
def Call.isOffer : Call → Bool
  | .choices _ => true
  | _ => false

/-- A view has an answer to every call but to an offer. -/
theorem View.perform_error {v : View} {c : Call} {e : Misfit} (h : v.perform c = .error e) :
    c.isOffer = true := by
  cases c <;> first | rfl | cases h

namespace Stand
variable {τ : Type} {n : Nat} {s o : Stand τ}

/-- The page after a mark. -/
def turn (p : Page) : RehearsalMark → Page
  | .call c => p.after c
  | .notice n => p.hear n
  | .hooked _ | .ended => p

/-- The page in the surroundings of a rehearsal: it is told by the marks, but for what a view
shows. -/
def page (s : Stand τ) : Page :=
  let p := s.marks.foldl turn {}
  s.view.elim p p.on

theorem page_of_none (h : s.view = none) : s.page = s.marks.foldl turn {} := by
  unfold page
  rw [h]
  rfl

theorem page_of_view {v : View} (h : s.view = some v) : s.page = (s.marks.foldl turn {}).on v := by
  unfold page
  rw [h]
  rfl

/-- That the owner was told of an end is not seen. -/
theorem page_leave_ended (s : Stand τ) : (s.leave .ended).page = s.page := by
  unfold page leave
  rw [List.foldl_append]
  rfl

/-- A call that is written down is on the page, unless a view shows it there. -/
theorem page_leave_call {c : Call} (h : s.view = none ∨ c.isVisual = false) :
    (s.leave (.call c)).page = s.page.after c := by
  have hmarks : (s.leave (.call c)).marks.foldl turn {} = (s.marks.foldl turn {}).after c := by
    unfold leave
    rw [List.foldl_append]
    rfl
  match hv : s.view with
  | none =>
    rw [page_of_none (show (s.leave (.call c)).view = none from hv), hmarks, page_of_none hv]
  | some v =>
    have hc : c.isVisual = false := h.resolve_left (by simp [hv])
    rw [page_of_view (show (s.leave (.call c)).view = some v from hv), hmarks, page_of_view hv,
      Page.after_on v _ hc]

/-- The page after a call. Only an offer may break off, for which there is no room. -/
theorem Sound.perform_page (h : Sound n s) (c : Call) : ∃ o e, s.perform c = (o, e) ∧ Sound n o ∧
    o.backstage = s.backstage ∧ o.page = s.page.after c ∧ (c.isOffer = false → e = none) := by
  have hwritten : Sound n (s.leave (.call c)) := ⟨h.slots, h.view, h.listed, h.leads⟩
  unfold perform
  match hv : s.view with
  | none => exact ⟨_, _, rfl, hwritten, rfl, page_leave_call (.inl hv), fun _ => rfl⟩
  | some v =>
    simp only
    split
    · next hvisual =>
      rw [page_of_view hv]
      cases hp : v.perform c with
      | ok v' =>
        obtain ⟨hslots, hpage⟩ := View.perform_on hp hvisual (s.marks.foldl turn {})
        refine ⟨_, _, rfl, ⟨h.slots, fun u hu => ?_, h.listed, h.leads⟩, rfl, hpage, fun _ => rfl⟩
        cases hu
        exact hslots.trans (h.view v hv)
      | error e =>
        have hoffer := View.perform_error hp
        have haside : c.isAside = true := by cases c <;> first | rfl | cases hoffer
        refine ⟨_, _, rfl, h, rfl, ?_, fun hno => by rw [hoffer] at hno; cases hno⟩
        rw [page_of_view hv, Page.after_aside _ haside]
    · next hvisual =>
      exact ⟨_, _, rfl, hwritten, rfl, page_leave_call (.inr (Bool.eq_false_iff.2 hvisual)),
        fun _ => rfl⟩

/-- What is delivered is heard, and that hooks have acted is not seen. -/
theorem Near.page {ns : List Notice} (h : Near ns s o) : o.page = ns.foldl Page.hear s.page := by
  obtain ⟨ms, hmarks, hnews, hsilent⟩ := h.marks
  have hturn (p : Page) : ms.foldl turn p = (ms.filterMap news?).foldl Page.hear p := by
    clear hmarks hnews
    induction ms generalizing p with
    | nil => rfl
    | cons m ms ih =>
      have hrest := ih fun m hm => hsilent m (List.mem_cons_of_mem _ hm)
      rw [List.foldl_cons, hrest]
      rcases hsilent m (List.mem_cons_self ..) with ⟨n, rfl⟩ | ⟨t, rfl⟩
      · by_cases hn : n.topic.isNovel = true
        · rw [List.filterMap_cons_some (show news? (.notice n) = some n from if_pos hn)]
          rfl
        · rw [List.filterMap_cons_none (show news? (.notice n) = none from if_neg hn)]
          exact congrArg (fun p => List.foldl Page.hear p (ms.filterMap news?))
            (p.hear_of_ne fun ht => hn (by rw [ht]; rfl))
      · rfl
  unfold Stand.page
  simp only
  rw [hmarks, List.foldl_append, hturn, hnews, h.view]
  cases s.view with
  | none => rfl
  | some v => exact (List.foldl_hom (Page.on v) (Page.hear_on v)).symm

end Stand

namespace Rehearsal
variable {τ : Type}

/-- What is seen of the line in a rehearsal. -/
def glimpse (d : Rehearsal τ) : Glimpse where
  page := d.outside.page
  line := d.session.line
  revealed := d.session.revealed
  revealing := d.session.revealing
  skip := d.session.skip

/-- A calm rehearsal with `n` slots, and what is seen in it. -/
structure Looks (n : Nat) (c : Course) (g : Glimpse) (d : Rehearsal τ) : Prop where
  sound : Stand.Sound n d.outside
  hushed : Hushed c d.outside.backstage
  glimpse : d.glimpse = g

namespace Looks
open Dialogue (awaken)
variable {n : Nat} {c : Course} {g : Glimpse} {d : Rehearsal τ}

/-! ## What changes nothing that is seen -/

/-- The tasks of a dialogue are not seen. -/
theorem tasks (h : Looks n c g d) (s : Scheduler τ (Activity Unit)) (reveal focus : Option TaskId) :
    Looks n c g { d with scheduler := s, reveal, focus } :=
  ⟨h.sound, h.hushed, h.glimpse⟩

theorem report (h : Looks n c g d) (e : Log.Entry) : Looks n c g (d.report Stand.stage e) :=
  ⟨⟨h.sound.slots, h.sound.view, h.sound.listed, h.sound.leads⟩, h.hushed, h.glimpse⟩

theorem reportAll (h : Looks n c g d) (es : List Log.Entry) :
    Looks n c g (d.reportAll Stand.stage es) := by
  induction es generalizing d with
  | nil => exact h
  | cons e es ih => exact ih (h.report e)

/-- What is seen in other surroundings is what is on their page. -/
theorem move (h : Looks n c g d) {o : Stand τ} {page : Page} (hsound : Stand.Sound n o)
    (hhushed : Hushed c o.backstage) (hpage : o.page = page) :
    Looks n c { g with page } { d with outside := o } := by
  obtain rfl := h.glimpse
  exact ⟨hsound, hhushed, congrArg (fun page => { d.glimpse with page }) hpage⟩

/-- A call is seen, and does not break off unless it is an offer. -/
theorem performs (h : Looks n c g d) (call : Call) : ∃ o e,
    Stand.stage.perform call d.outside = (o, e) ∧
      Looks n c { g with page := g.page.after call } { d with outside := o } ∧
        (call.isOffer = false → e = none) := by
  obtain ⟨o, e, hperform, hsound, hback, hpage, hok⟩ := h.sound.perform_page call
  obtain rfl := h.glimpse
  exact ⟨o, e, hperform, h.move hsound (hback ▸ h.hushed) hpage, hok⟩

theorem perform (h : Looks n c g d) (call : Call) :
    Looks n c { g with page := g.page.after call } (Dialogue.perform Stand.stage call d).1 := by
  obtain ⟨o, e, hperform, hlooks, -⟩ := h.performs call
  unfold Dialogue.perform Dialogue.attempt
  rw [hperform]
  exact hlooks

theorem perform_ok (h : Looks n c g d) (call : Call) (hc : call.isOffer = false) :
    (Dialogue.perform Stand.stage call d).2 = none := by
  obtain ⟨o, e, hperform, -, hok⟩ := h.performs call
  unfold Dialogue.perform Dialogue.attempt
  rw [hperform]
  exact hok hc

/-- Most calls are not seen on the page. -/
theorem perform_aside (h : Looks n c g d) {call : Call} (hc : call.isAside = true) :
    Looks n c g (Dialogue.perform Stand.stage call d).1 := by
  have hafter := h.perform call
  rw [g.page.after_aside hc] at hafter
  exact hafter

theorem cancelReveal (h : Looks n c g d) : Looks n c g (d.cancelReveal Stand.stage) := by
  unfold Dialogue.cancelReveal
  split
  · exact h
  · next id _ =>
    obtain ⟨s, hs, -⟩ := Dialogue.host_cancel_tasks Stand.stage id d
    rw [hs]
    exact h.tasks s none d.focus

theorem cancelFocus (h : Looks n c g d) : Looks n c g (d.cancelFocus Stand.stage) := by
  unfold Dialogue.cancelFocus
  split
  · exact h
  · next id _ =>
    obtain ⟨s, hs, -⟩ := Dialogue.host_cancel_tasks Stand.stage id d
    rw [hs]
    exact h.tasks s d.reveal none

variable [Clock τ]

/-- Nobody answers an event. -/
theorem publish (interval : τ) (sound : Json) (h : Looks n c g d) {e : Notice}
    (he : e.topic.isNovel = true) : Looks n c { g with page := g.page.hear e }
      (Rehearsal.publish interval sound e d).1 := by
  obtain ⟨o, hpublish, hnear, hdel⟩ := publish_near interval sound h.sound h.hushed.hooks
    h.hushed.queue h.hushed.delivering e (deaf_of_novel h.sound he)
  have hpage : o.page = d.outside.page.hear e := by
    rw [hnear.page, show Stand.newsOf e = [e] from if_pos he]
    rfl
  obtain rfl := h.glimpse
  rw [hpublish]
  exact h.move (hnear.sound h.sound) (h.hushed.near hnear hdel) hpage

/-- An event that announces no line is not seen. -/
theorem publish_aside (interval : τ) (sound : Json) (h : Looks n c g d) {e : Notice}
    (he : e.topic.isNovel = true) (hline : e.topic ≠ .lineStarted) :
    Looks n c g (Rehearsal.publish interval sound e d).1 := by
  have hheard := h.publish interval sound he
  rw [g.page.hear_of_ne hline] at hheard
  exact hheard

/-- How a run of a task ended is not seen. -/
theorem settle (h : Looks n c g d) (id : TaskId) (now : τ) (tick : Nat)
    (o : Outcome τ (Activity Unit)) :
    Looks n c g ((Dialogue.host Stand.stage).settle id now tick o d).1 := by
  cases o with
  | finish => exact h.tasks _ d.reveal d.focus
  | fail => exact (h.report _).tasks _ d.reveal d.focus
  | suspend r rest =>
    unfold Host.settle Host.suspend
    simp only
    split
    · exact h.tasks _ d.reveal d.focus
    · split <;> exact h.tasks _ d.reveal d.focus

/-- A task that is started is seen by what its first run does. -/
theorem start (name : Json) {run : Rehearsal τ → Rehearsal τ × Outcome τ (Activity Unit)}
    (h : Looks n c g (run { d with scheduler := d.scheduler.enrol name }).1) :
    Looks n c g ((Dialogue.host Stand.stage).start name run d).1.1 := by
  rcases hrun : run { d with scheduler := d.scheduler.enrol name } with ⟨d', o⟩
  rw [hrun] at h
  have hrun' : run ((Dialogue.host Stand.stage).modify (fun c => { c with
      tasks := c.tasks ++ [{ name, body := .running, wakeTime := c.time }] }) d) = (d', o) := hrun
  have hsettle : Looks n c g ((Dialogue.host Stand.stage).settle
      ((Dialogue.host Stand.stage).scheduler d).tasks.length
      ((Dialogue.host Stand.stage).scheduler d).time
      ((Dialogue.host Stand.stage).scheduler d).tick o d').1 := h.settle _ _ _ o
  unfold Host.start
  simp only [hrun']
  split
  · next d'' e he =>
    rw [he] at hsettle
    exact hsettle.tasks _ d''.reveal d''.focus
  · next d'' he =>
    rw [he] at hsettle
    split
    · exact hsettle
    · exact hsettle.tasks _ d''.reveal d''.focus

/-- A task that is resumed is seen by what its run does. -/
theorem resume {id : TaskId} {t : Task τ (Activity Unit)} {rest : Activity Unit}
    {run : Activity Unit → Rehearsal τ → Rehearsal τ × Outcome τ (Activity Unit)}
    (ht : d.scheduler.task? id = some t) (hl : t.left? = some rest)
    (h : Looks n c g (run rest { d with scheduler := awaken id d.scheduler }).1) :
    Looks n c g ((Dialogue.host Stand.stage).resume run id d).1 := by
  have hresume : (Dialogue.host Stand.stage).resume run id d =
      (Dialogue.host Stand.stage).settle id t.wakeTime d.scheduler.tick
        (run rest { d with scheduler := awaken id d.scheduler }).2
        (run rest { d with scheduler := awaken id d.scheduler }).1 := by
    have ht' : ((Dialogue.host Stand.stage).scheduler d).task? id = some t := ht
    unfold Host.resume
    simp only [ht', (Task.left?_eq_some.1 hl).1]
    rfl
  rw [hresume]
  exact h.settle id t.wakeTime d.scheduler.tick _

/-! ## Choices and the end of a story -/

variable {interval : τ} {sound : Json}

omit [Clock τ] in
theorem takeChoices (h : Looks n c g d) : Looks n c g (d.takeChoices Stand.stage).1 := by
  have hdrop : Looks n c g (d.dropChoices Stand.stage d.storyChoices).1 := by
    unfold Dialogue.dropChoices
    simp only
    split
    · exact h
    · exact h.report _
  have htake (b : Bool) : Looks n c g
      (if b then d.dropChoices Stand.stage d.storyChoices else (d, .ok d.storyChoices)).1 := by
    cases b with
    | false => exact h
    | true => exact hdrop
  unfold Dialogue.takeChoices
  simp only
  split
  · exact h
  · next tooMany _ =>
    have htaken := htake tooMany
    split
    · exact htaken
    · exact ⟨htaken.sound, htaken.hushed, htaken.glimpse⟩

theorem startFocus (h : Looks n c g d) : Looks n c g
    (d.startFocus (wiring interval sound (Rehearsal.publish interval sound))).1 := by
  let run (d : Rehearsal τ) : Rehearsal τ × Outcome τ (Activity Unit) :=
    Dialogue.runTo (.suspend .nextTick .focusChoice) (Dialogue.perform Stand.stage .clearFocus d)
  have hrun : Looks n c g (run { d with scheduler := d.scheduler.enrol (.str "focus_choice") }).1 := by
    rw [Dialogue.runTo_fst]
    exact (h.tasks _ d.reveal d.focus).perform_aside rfl
  have hstart : Looks n c g
      (((Dialogue.host Stand.stage).start (.str "focus_choice") run d).1.mapError Fault.misfit).1 :=
    Looks.start _ hrun
  exact Attempt.andThen_keeps hstart fun d hd => hd.tasks d.scheduler d.reveal _

/-- To offer choices is not seen on the page. -/
theorem presentChoices (h : Looks n c g d) : Looks n c g
    (d.presentChoices (wiring interval sound (Rehearsal.publish interval sound))).1 := by
  refine Attempt.andThen_keeps (P := Looks n c g) h.takeChoices fun d hd => ?_
  simp only
  split
  · exact ⟨hd.sound, hd.hushed, hd.glimpse⟩
  · have hoffering : Looks n c g (d.withSession fun s => { s with phase := .awaitingChoice }) :=
      ⟨hd.sound, hd.hushed, hd.glimpse⟩
    exact Attempt.andThen_keeps (P := Looks n c g) (hoffering.perform_aside rfl) fun d hd =>
      (hd.publish_aside interval sound rfl (by nofun)).startFocus

theorem lineRevealed (h : Looks n c g d) : Looks n c g
    (d.lineRevealed (wiring interval sound (Rehearsal.publish interval sound))).1 :=
  (h.publish_aside interval sound rfl (by nofun)).presentChoices

omit [Clock τ] in
theorem unlisten (h : Looks n c g d) : Looks n c g (d.withOutside fun s =>
    { s with bus := s.bus.unsubscribe (fun _ => true) .actionPressed .dialogue }) := by
  obtain ⟨hsound, hback, -⟩ := Stand.unlisten_eq h.sound
  exact ⟨hsound, hback ▸ h.hushed, h.glimpse⟩

/-- A story ends without a sign on the page, when no line is under way. -/
theorem finish (h : Looks n c g d) (hr : g.revealing = false) (hs : g.skip = false) : Looks n c g
    (d.finish (wiring interval sound (Rehearsal.publish interval sound))).1 := by
  unfold Dialogue.finish
  split
  · exact h
  · have hcancelled := h.unlisten.cancelReveal.cancelFocus
    refine Attempt.turn_keeps (P := Looks n c g) (hcancelled.perform_aside rfl) fun d hd => ?_
    have hover : Looks n c g (d.withSession Session.finish) := by
      refine ⟨hd.sound, hd.hushed, ?_⟩
      have hseen := hd.glimpse
      subst hseen
      exact congrArg₂ (fun revealing skip => { d.glimpse with revealing, skip }) hr.symm hs.symm
    exact (hover.publish_aside interval sound rfl (by nofun)).report _

/-! ## Lines -/

omit [Clock τ] in
theorem revealNext (h : Looks n c g d) :
    Looks n c (g.next sound) (d.revealNext ⟨Stand.stage, interval, sound⟩).1 := by
  obtain rfl := h.glimpse
  have hmore : Looks n c { d.glimpse with revealed := d.session.revealed + 1 }
      (d.withSession fun s => { s with revealed := s.revealed + 1 }) :=
    ⟨h.sound, h.hushed, rfl⟩
  unfold Dialogue.revealNext
  simp only
  rw [Attempt.andThen_eq (hmore.perform_ok (.visible _) rfl)]
  exact (hmore.perform (.visible (d.session.revealed + 1))).perform (.play sound)

omit [Clock τ] in
/-- The rest of a line is shown without breaking off. -/
theorem revealRest (interval : τ) (sound : Json) (h : Looks n c g d) : ∃ d',
    d.revealRest ⟨Stand.stage, interval, sound⟩ d.session.line.length = (d', none) ∧
      Looks n c g.rest d' := by
  obtain rfl := h.glimpse
  unfold Dialogue.revealRest
  by_cases hlt : d.session.revealed < d.session.line.length
  · have hall : Looks n c
        { d.glimpse with revealed := d.session.line.length, skip := false }
        (d.withSession fun s => { s with revealed := d.session.line.length, skip := false }) :=
      ⟨h.sound, h.hushed, rfl⟩
    rw [if_pos hlt, Glimpse.rest_of_lt hlt]
    exact ⟨_, Prod.ext rfl (hall.perform_ok (.visible _) rfl),
      hall.perform (.visible d.session.line.length)⟩
  · rw [if_neg hlt, Glimpse.rest_of_not_lt hlt]
    exact ⟨d, rfl, h⟩

/-- A run of the task that reveals the line is a run of what is seen of it. -/
theorem runReveal (interval : τ) (sound : Json) (h : Looks n c g d) : Looks n c (g.run sound)
    (d.runReveal ⟨Stand.stage, interval, sound⟩ d.session.line () (Dialogue.lineRevealed
      (wiring interval sound (Rehearsal.publish interval sound)))).1 := by
  obtain rfl := h.glimpse
  unfold Dialogue.runReveal
  by_cases hmore : d.session.revealed < d.session.line.length ∧ d.session.skip = false
  · rw [if_pos hmore, Glimpse.run_of_more hmore, Dialogue.runTo_fst]
    exact h.revealNext
  · obtain ⟨d', hrest, hlooks⟩ := h.revealRest interval sound
    have hended : Looks n c d.glimpse.last
        (d'.endReveal ⟨Stand.stage, interval, sound⟩ d.session.line.length) := by
      refine ⟨(hlooks.report _).sound, hlooks.hushed, ?_⟩
      unfold Glimpse.last
      rw [← hlooks.glimpse]
      rfl
    rw [if_neg hmore, Glimpse.run_of_last hmore, Dialogue.runTo_fst, hrest, Attempt.andThen_none]
    exact hended.lineRevealed

/-- The task is started that reveals the line: the line is set, and the task is run once. -/
theorem startReveal {text : String} (h : Looks n c g d) (hline : g.line = text) :
    Looks n c ((g.set text).run sound) (d.startReveal ⟨Stand.stage, interval, sound⟩ text ()
      (Dialogue.lineRevealed (wiring interval sound (Rehearsal.publish interval sound)))).1 := by
  have hcancelled := h.cancelReveal
  have hblank : Looks n c { g with revealing := true, revealed := 0 }
      ((d.cancelReveal Stand.stage).withSession fun s =>
        { s with revealing := true, revealed := 0 }) :=
    ⟨hcancelled.sound, hcancelled.hushed, by rw [← hcancelled.glimpse]; rfl⟩
  have hheld := hblank.perform (.line text)
  have hset := hheld.perform (.visible 0)
  subst hline
  unfold Dialogue.startReveal
  simp only
  rw [Attempt.andThen_eq (hblank.perform_ok (.line g.line) rfl),
    Attempt.andThen_eq (hheld.perform_ok (.visible 0) rfl)]
  generalize (Dialogue.perform Stand.stage (.visible 0) _).1 = e at hset ⊢
  have hrun := Looks.runReveal interval sound
    (hset.tasks (e.scheduler.enrol (.str "reveal_line")) e.reveal e.focus)
  have hheld : e.session.line = g.line := congrArg Glimpse.line hset.glimpse
  rw [show Dialogue.session _ = e.session from rfl, hheld] at hrun
  have hstart : Looks n c ((g.set g.line).run sound)
      (((Dialogue.host Stand.stage).start (.str "reveal_line") (Dialogue.runReveal
        ⟨Stand.stage, interval, sound⟩ g.line () (Dialogue.lineRevealed
          (wiring interval sound (Rehearsal.publish interval sound)))) e).1.mapError
            Fault.misfit).1 := Looks.start _ hrun
  exact Attempt.andThen_keeps hstart fun d hd => hd.tasks d.scheduler _ d.focus

omit [Clock τ] in
/-- A directive may play a sound; nothing else of it is seen. -/
theorem directive (directive : Directive) (h : Looks n c g d) : ∃ o,
    directive.apply Stand.stage d.outside = (o, none) ∧
      Looks n c { g with page := g.page.play directive.sounds } { d with outside := o } := by
  match hcall : directive.call? with
  | none =>
    cases directive <;> cases hcall
    refine ⟨_, rfl, ?_⟩
    rw [show Directive.sounds (.unknown ..) = [] from rfl, Page.play_nil]
    exact h.report _
  | some call =>
    have hoffer : call.isOffer = false := by cases directive <;> cases hcall <;> rfl
    have hpage : g.page.after call = g.page.play directive.sounds := by
      cases directive <;> cases hcall <;> first | rfl | exact g.page.play_nil.symm
    have hperform : directive.apply Stand.stage d.outside = Stand.stage.perform call d.outside := by
      cases directive <;> cases hcall <;> rfl
    obtain ⟨o, e, he, hlooks, hok⟩ := h.performs call
    rw [hpage] at hlooks
    exact ⟨o, by rw [hperform, he, hok hoffer], hlooks⟩

omit [Clock τ] in
/-- The tags of a line play their sounds; nothing else of them is seen. -/
theorem tags (tags : List String) (h : Looks n c g d) : ∃ o,
    (Tag.applyAll Stand.stage tags d.outside).1 = (o, none) ∧
      Looks n c { g with page := g.page.play (Tag.sounds tags) } { d with outside := o } := by
  induction tags generalizing g d with
  | nil =>
    refine ⟨d.outside, rfl, ?_⟩
    rw [show Tag.sounds [] = [] from rfl, Page.play_nil]
    exact h
  | cons raw tags ih =>
    unfold Tag.applyAll Tag.sounds
    rw [List.flatMap_cons]
    cases Tag.parse raw with
    | error e => exact ih (h.report (Log.warning e.message))
    | ok directive =>
      obtain ⟨o, happly, hlooks⟩ := h.directive directive
      obtain ⟨o', hrest, hlooks'⟩ := ih hlooks
      simp only [happly]
      rw [Page.play_play] at hlooks'
      exact ⟨o', hrest, hlooks'⟩

end Looks

/-- In what is seen a line was set, and no skip was asked for. -/
def Sets (n : Nat) (c : Course) (sound : Json) (g : Glimpse) (d : Rehearsal τ) : Prop :=
  ∃ g', Looks n c g' d ∧ g.page.lines < g'.page.lines ∧ g'.Stands sound .patient

/-- What is seen is as it was, or a line was set. A command that ends the story sets none. -/
def Onward (n : Nat) (c : Course) (sound : Json) (g : Glimpse) (r : Rehearsal τ × Turn) : Prop :=
  Looks n c g r.1 ∨ r.2 ≠ .ended ∧ Sets n c sound g r.1

section
variable {n : Nat} {c : Course} {g : Glimpse} {d : Rehearsal τ} [Clock τ] {interval : τ}
  {sound : Json}

/-- A line that is shown is set. -/
theorem showLine_sets (line : Story.Line) (h : Looks n c g d) (hs : g.skip = false) :
    Sets n c sound g
      (d.showLine (wiring interval sound (Rehearsal.publish interval sound)) line).1 := by
  have hbegun : Looks n c { g with line := line.text, revealed := 0 }
      (d.withSession (Session.beginLine line.text)) :=
    ⟨h.sound, h.hushed, by rw [← h.glimpse]; rfl⟩
  have htold := hbegun.publish interval sound (e := .lineStarted line.text line.tags) rfl
  generalize he : (Rehearsal.publish interval sound (.lineStarted line.text line.tags)
    (d.withSession (Session.beginLine line.text))).1 = e at htold
  obtain ⟨o, htags, hlooks⟩ := htold.tags line.tags
  have hattempt : e.attempt (fun o => (Tag.applyAll Stand.stage line.tags o).1) =
      ({ e with outside := o }, none) := by
    unfold Dialogue.attempt
    simp only [htags]
  have hshow : d.showLine (wiring interval sound (Rehearsal.publish interval sound)) line =
      Dialogue.startReveal ⟨Stand.stage, interval, sound⟩ line.text () (Dialogue.lineRevealed
        (wiring interval sound (Rehearsal.publish interval sound))) { e with outside := o } := by
    unfold Dialogue.showLine
    simp only
    rw [show (wiring interval sound (Rehearsal.publish interval sound)).publish _ _ = e from he]
    exact congrArg (Attempt.andThen · _) hattempt
  rw [hshow]
  refine ⟨_, hlooks.startReveal rfl, ?_, Glimpse.Stands.run ?_ rfl (Nat.zero_le _)⟩
  · rw [Glimpse.lines_run]
    exact Nat.lt_succ_self _
  · exact .set line.text hs (List.nil_append _)

omit [Clock τ] in
theorem Onward.turn {r : Attempt (Rehearsal τ) Fault} (hr : Looks n c g r.1)
    {next : Rehearsal τ → Rehearsal τ × Turn}
    (hn : ∀ d, Looks n c g d → Onward n c sound g (next d)) : Onward n c sound g (r.turn next) := by
  obtain ⟨d, e⟩ := r
  cases e with
  | none => exact hn d hr
  | some e => exact .inl hr

omit [Clock τ] in
theorem Onward.settled {r : Attempt (Rehearsal τ) Fault} (hr : Sets n c sound g r.1) :
    Onward n c sound g (r.turn (·, .done)) := by
  obtain ⟨d, e⟩ := r
  cases e with
  | none => exact .inr ⟨nofun, hr⟩
  | some e => exact .inr ⟨nofun, hr⟩

/-- To go on with a story sets its next line, or changes nothing that is seen. -/
theorem continueStory_onward (h : Looks n c g d) (hs : g.revealing = false → g.skip = false) :
    Onward n c sound g
      (d.continueStory (wiring interval sound (Rehearsal.publish interval sound))) := by
  have hrevealing : d.session.revealing = g.revealing := congrArg Glimpse.revealing h.glimpse
  unfold Dialogue.continueStory
  cases d.story with
  | none => exact .inl h
  | some p =>
    simp only
    split
    · exact .inl h
    · next hrun =>
      have hr : g.revealing = false := by
        rw [← hrevealing]
        exact Bool.eq_false_iff.2 fun hon => hrun (by rw [hon, Bool.or_true])
      split
      · split
        · exact .inl (h.finish hr (hs hr))
        · split
          · exact .turn h.cancelFocus.presentChoices fun d hd => .inl hd
          · exact .inl h
      · refine .turn (h.cancelReveal.cancelFocus.perform_aside rfl) fun d hd => ?_
        cases p.continue? with
        | error e => exact .inl hd
        | ok read =>
          obtain ⟨line, p', log⟩ := read
          have hread : Looks n c g ({ d with story := some p' }) :=
            ⟨hd.sound, hd.hushed, hd.glimpse⟩
          exact .settled (showLine_sets line (hread.reportAll log) (hs hr))

omit [Clock τ] in
theorem reportChoice_onward (h : Looks n c g d) (entry : String → Log.Entry) (index : Json) :
    Onward n c sound g (d.reportChoice Stand.stage entry index) := by
  unfold Dialogue.reportChoice
  split
  · exact .inl h
  · exact .inl (h.report _)

theorem take_onward (h : Looks n c g d) (hs : g.revealing = false → g.skip = false)
    (p : Story.Player) (choice : Choice) : Onward n c sound g
      (d.take (wiring interval sound (Rehearsal.publish interval sound)) p choice) := by
  unfold Dialogue.take
  split
  · exact .inl h
  · next p' log _ =>
    have hchosen : Looks n c g { d with story := some p' } :=
      ⟨h.sound, h.hushed, h.glimpse⟩
    have hlogged := hchosen.reportAll log
    have htaken : Looks n c g ((({ d with story := some p' } : Rehearsal τ).reportAll Stand.stage
        log).withSession fun s => { s with pending := [] }) :=
      ⟨hlogged.sound, hlogged.hushed, hlogged.glimpse⟩
    exact continueStory_onward (htaken.publish_aside interval sound rfl (by nofun)) hs

/-- To choose leads on in the story, or changes nothing that is seen. -/
theorem choose_onward (h : Looks n c g d) (hs : g.revealing = false → g.skip = false)
    (index : Json) : Onward n c sound g
      (d.choose (wiring interval sound (Rehearsal.publish interval sound)) index) := by
  unfold Dialogue.choose
  cases d.story with
  | none => exact .inl h
  | some p =>
    simp only
    split
    · exact .inl h
    · split
      · exact reportChoice_onward h _ _
      · split
        · exact .inl h
        · split
          · split
            · exact .inl h
            · next i _ =>
              cases d.session.pending[i.toNat]? with
              | none => exact .inl h
              | some choice => exact take_onward h hs p choice
          · exact reportChoice_onward h _ _

/-- The player's signal leads on in the story, or changes nothing that is seen, when no line is
revealed. -/
theorem advance_onward (h : Looks n c g d) (hr : g.revealing = false) (hs : g.skip = false) :
    Onward n c sound g (d.advance (wiring interval sound (Rehearsal.publish interval sound))) := by
  have hrevealing : d.session.revealing = false := (congrArg Glimpse.revealing h.glimpse).trans hr
  unfold Dialogue.advance
  split
  · exact .inl h
  · rw [if_neg (by rw [hrevealing]; nofun)]
    split
    · exact continueStory_onward h fun _ => hs
    · exact .inl h

omit [Clock τ] in
/-- To listen to the player is not seen. -/
theorem Looks.listen (h : Looks n c g d) : Looks n c g (d.attempt Stand.listen).1 := by
  obtain ⟨s, hs, hsound, hback, -⟩ := Stand.listen_eq h.sound
  have hsame : s.page = d.outside.page := by
    unfold Stand.listen Stand.subscribe at hs
    split at hs <;> cases hs
    rfl
  unfold Dialogue.attempt
  rw [hs]
  obtain rfl := h.glimpse
  exact h.move hsound (hback ▸ h.hushed) hsame

/-- To begin a story sets its first line, or changes nothing that is seen. -/
theorem begin_onward (h : Looks n c g d) (hs : g.revealing = false → g.skip = false)
    (content : Json) : Onward n c sound g
      (d.begin (wiring interval sound (Rehearsal.publish interval sound)) content) := by
  unfold Dialogue.begin
  split
  · exact .inl (h.report _)
  · split
    · exact .inl h
    · next graph _ =>
      simp only
      have hchosen : Looks n c g { d with story := some (Story.Player.start graph).1 } :=
        ⟨h.sound, h.hushed, h.glimpse⟩
      have hlogged := hchosen.reportAll (Story.Player.start graph).2
      have hactive : Looks n c g ((({ d with
          story := some (Story.Player.start graph).1 } : Rehearsal τ).reportAll Stand.stage
            (Story.Player.start graph).2).withSession fun s =>
              { s with active := true, phase := .idle }) :=
        ⟨hlogged.sound, hlogged.hushed, hlogged.glimpse⟩
      refine .turn (Attempt.andThen_keeps (P := Looks n c g) (hactive.perform_aside rfl)
        fun d hd => hd.listen) fun d hd => ?_
      exact continueStory_onward ((hd.publish_aside interval sound rfl (by nofun)).report _) hs

end

end Rehearsal
end VisualNovel
