import VisualNovel.Proofs.Dialogue.Venue
/-!
# From a line to the choices

A line that was fetched is revealed, at once if it is empty, and then the choices are offered. Each
step is done without breaking off, and leaves a dialogue behind that is steady, and composed in a
calm venue.
-/
namespace VisualNovel.Dialogue
open Venue (Lands)

variable {τ ω : Type} {S : Venue τ ω} [Clock τ] {w : Wiring τ ω} {d : Dialogue τ Unit ω}

/-! ## Choices -/

theorem takeChoices_eq (hw : S.Suits w) (ho : S.ok d.outside) :
    ∃ o, d.takeChoices w.stage =
        ({ d with
          session := { d.session with pending := d.storyChoices.take S.slots }
          outside := o }, none) ∧ S.Keeps id d.outside o := by
  unfold takeChoices
  simp only [hw.slots _ ho, Slots.areFewerThan]
  by_cases h : (S.slots : Int) < d.storyChoices.length
  · refine ⟨_, ?_, hw.report (tooManyChoices d.storyChoices.length S.slots) d.outside ho⟩
    simp [h, dropChoices, hw.slots _ ho, Slots.whole, Slots.cut, firstSlots, withSession, report,
      withOutside]
  · refine ⟨d.outside, ?_, ho, rfl⟩
    have hall : d.storyChoices.take S.slots = d.storyChoices := List.take_of_length_le (by omega)
    simp [h, withSession, hall]

theorem startFocus_eq (hw : S.Suits w) (h : S.Still d) :
    ∃ s o i t, d.startFocus w =
        ({ d with scheduler := s, focus := some i, outside := o }, none) ∧
      s.Orderly S.Timely ∧ d.scheduler.Follows s ∧ S.Keeps id d.outside o ∧
      Focusing s d.reveal (some i) i t := by
  obtain ⟨o, ho, hk⟩ := hw.perform_eq
    (d := { d with scheduler := d.scheduler.enrol (.str "focus_choice") }) h.ok .clearFocus nofun
  obtain ⟨s, t, hs, hos, hf, hown, hb, honly, hrev, -⟩ := shelve_new h.orderly h.free
    (.str "focus_choice") .focusChoice rfl d.scheduler.time (d.scheduler.tick + 1)
    fun t ht _ hn => ⟨ht ▸ h.time, hn⟩
  refine ⟨s, o, d.scheduler.tasks.length, t, ?_, hos, hf, hk, rfl, hown, hb, honly, hrev⟩
  have hstart := host_start_suspend w.stage (d := d) (.str "focus_choice")
    (fun d => runTo (.suspend .nextTick .focusChoice) (d.perform w.stage .clearFocus))
    (by rw [ho]; rfl) (.refl _) rfl
  unfold startFocus startHandover
  rw [hstart]
  show (({ d with outside := o, scheduler := _, focus := _ } : Dialogue τ Unit ω), none) = _
  rw [← hs]
  rfl

omit [Clock τ] in
/-- With choices on offer, and so nothing to read, a dialogue takes no heed of a command to go
on. -/
theorem heedless_of_choices {n : Nat} (hp : d.session.pending = d.storyChoices.take n)
    (hne : d.session.pending ≠ []) : Venue.Heedless d := by
  refine fun _ => ⟨hne, ?_⟩
  have hsome : d.storyChoices ≠ [] := by
    intro hnil
    rw [hp, hnil, List.take_nil] at hne
    exact hne rfl
  unfold storyChoices at hsome
  match hs : d.story with
  | none =>
    rw [hs] at hsome
    exact absurd rfl hsome
  | some p =>
    rw [hs] at hsome
    exact ⟨p, rfl, Story.Player.canContinue_of_choices hsome, hsome⟩

/-- The pending choices are shown, and the first one is focused. -/
theorem offer_lands (hw : S.Suits w) (ha : S.Attends w) (h : S.Still d) (hu : S.Under d none)
    (hphase : d.session.phase = .awaitingChoice)
    (hp : d.session.pending = d.storyChoices.take S.slots) (hne : d.session.pending ≠ [])
    (hc : S.calm → S.Chronicle d .pause ∧ (S.sight d.outside).ears = 1 ∧
      d.session.active = true) :
    ∃ d', ((d.perform w.stage (.choices d.session.pending)).andThen fun d' =>
        (w.publish (.choicesShown d.session.pending) d').startFocus w) = (d', none) ∧
      S.Lands d d' .done ∧ d'.session.revealing = false := by
  obtain ⟨o, hshow, hk⟩ := hw.perform_eq h.ok (.choices d.session.pending) fun cs hcs => by
    cases hcs
    rw [hp]
    exact List.length_take_le _ _
  have hidle : ({ d with outside := o } : Dialogue τ Unit ω).session.phase ≠ .revealing := by
    rw [hphase]
    exact nofun
  have hu' : S.Under { d with outside := o } none :=
    hu.outside ((congrArg Sight.news hk.2).trans rfl)
  obtain ⟨hstill, hunder, hphase', hf⟩ := ha.choicesShown d.session.pending _ (h.outside hk.1)
    (hu'.heard rfl) hidle (heedless_of_choices hp hne)
  obtain ⟨s, o', i, t, hstart, hos, hf', hk', hfocus⟩ := startFocus_eq hw hstill
  rw [hshow, Attempt.andThen_none, hstart]
  have hsteady := hstill.steady hphase' hunder fun _ => rfl
  refine ⟨_, rfl, ⟨⟨⟨hk'.1, hos, hf'.time ▸ hstill.time, hstill.revealed⟩, hsteady.phase,
    hsteady.skip, ?_, ?_, fun _ => Or.inr ⟨i, t, hfocus⟩, ?_⟩, hf.trans hf', fun hcalm => ⟨?_, trivial⟩⟩,
    hstill.revealing⟩
  · intro hr
    rw [show _ = false from hstill.revealing] at hr
    cases hr
  · intro hr
    rw [show _ = false from hstill.revealing] at hr
    cases hr
  · obtain ⟨line?, hline, hl⟩ := hsteady.pace
    exact ⟨line?, hline.outside (congrArg Sight.news hk'.2), hl⟩
  · obtain ⟨hch, hears, hact⟩ := hc hcalm
    obtain ⟨o'', heq, hk''⟩ := ha.calm hcalm (.choicesShown d.session.pending)
      { d with outside := o } rfl hk.1
    have hsight : S.sight o' =
        { S.sight o with news := (S.sight o).news ++ [.choicesShown d.session.pending] } := by
      rw [show S.sight o' = _ from hk'.2, heq]
      exact hk''.2
    have hsight' : S.sight o = (S.sight d.outside).after (.choices d.session.pending) := hk.2
    refine .ofPause ?_ ?_ ?_ hstill.revealing (Or.inr ?_)
    · show History S.course (S.sight o').news (S.sight o').bows _ .pause
      rw [heq, hsight, hsight']
      exact hch.offered d.session.pending
    · rw [hsight, hsight']
      exact hears
    · rw [heq]
      exact hact
    · rw [heq]
      exact ⟨hphase, hne, hp⟩

theorem presentChoices_lands (hw : S.Suits w) (ha : S.Attends w) (h : S.Still d)
    (hu : S.Under d none) (hc : S.calm → S.Poised d .pause) :
    ∃ d', d.presentChoices w = (d', none) ∧ S.Lands d d' .done ∧
      d'.session.revealing = false := by
  obtain ⟨o, htake, hk⟩ := takeChoices_eq hw h.ok
  unfold presentChoices
  rw [htake, Attempt.andThen_none]
  by_cases hnil : d.storyChoices.take S.slots = []
  · refine ⟨_, if_pos (by simp [hnil]), ⟨?_, .refl _, fun hcalm => ⟨?_, trivial⟩⟩, h.revealing⟩
    · exact Venue.Still.steady ⟨⟨hk.1, h.orderly, h.time, h.revealed⟩, h.revealing, h.skip, h.free⟩
        nofun (hu.outside (congrArg Sight.news hk.2)) fun _ => rfl
    · have hp := (hc hcalm).outside hk
      exact .ofPause hp.chronicle hp.ears hp.active hp.revealing (Or.inl ⟨rfl, hnil, h.free⟩)
  · simp only [List.isEmpty_iff, hnil, if_false]
    obtain ⟨d', he, hl, hr⟩ := offer_lands hw ha
      (d := { d with
        session := { d.session with
          pending := d.storyChoices.take S.slots
          phase := .awaitingChoice }
        outside := o })
      ⟨⟨hk.1, h.orderly, h.time, h.revealed⟩, h.revealing, h.skip, h.free⟩
      (hu.outside (congrArg Sight.news hk.2)) rfl rfl hnil
      fun hcalm => by
        have hp := (hc hcalm).outside hk
        exact ⟨hp.chronicle, hp.ears, hp.active⟩
    exact ⟨d', he, hl.after (.refl _), hr⟩

theorem lineRevealed_lands (hw : S.Suits w) (ha : S.Attends w) (h : S.Still d)
    (hu : (S.heard (.lineRevealed d.session.line)).Under d none)
    (hp : d.session.pending = []) (hc : S.calm → S.Poised d (.line d.session.line)) :
    ∃ d', d.lineRevealed w = (d', none) ∧ S.Lands d d' .done ∧
      d'.session.revealing = false := by
  obtain ⟨hstill, hunder, -, hf⟩ := ha.lineRevealed d.session.line d h hu hp
  obtain ⟨d', he, hl, hr⟩ := presentChoices_lands hw ha hstill hunder fun hcalm => by
    obtain ⟨o, heq, hk⟩ := ha.calm hcalm (.lineRevealed d.session.line) d rfl h.ok
    have hpoised := hc hcalm
    rw [heq]
    refine ⟨?_, ?_, hpoised.active, hpoised.revealing, hpoised.pending⟩
    · show History S.course (S.sight o).news (S.sight o).bows _ .pause
      rw [hk.2]
      exact hpoised.chronicle.revealed
    · show (S.sight o).ears = 1
      rw [hk.2]
      exact hpoised.ears
  exact ⟨d', he, hl.after hf, hr⟩

/-! ## A run of the task that reveals a line -/

theorem runReveal_next (hw : S.Suits w) (ho : S.ok d.outside) (text : String)
    (complete : Dialogue τ Unit ω → Attempt (Dialogue τ Unit ω) Fault)
    (hlt : d.session.revealed < text.length) (hs : d.session.skip = false) :
    ∃ o, d.runReveal w.manner text () complete =
        ({ d with
          session := { d.session with revealed := d.session.revealed + 1 }
          outside := o }, .suspend (.wait w.manner.interval) (.reveal text ())) ∧
      S.Keeps id d.outside o := by
  obtain ⟨o, hshow, hk⟩ := hw.perform_eq
    (d := d.withSession fun s => { s with revealed := s.revealed + 1 }) ho
    (.visible (d.session.revealed + 1)) nofun
  obtain ⟨o', hplay, hk'⟩ := hw.perform_eq
    (d := { d.withSession fun s => { s with revealed := s.revealed + 1 } with outside := o }) hk.1
    (.play w.manner.sound) nofun
  refine ⟨o', ?_, hk.trans hk'⟩
  unfold runReveal revealNext
  rw [if_pos ⟨hlt, hs⟩]
  show runTo _ ((perform w.stage (.visible (d.session.revealed + 1)) _).andThen _) = _
  rw [hshow, Attempt.andThen_none]
  show runTo _ (perform w.stage (.play w.manner.sound) _) = _
  rw [hplay]
  rfl

theorem revealRest_eq (hw : S.Suits w) (ho : S.ok d.outside) {text : String}
    (hline : d.session.line = text) (hlen : d.session.revealed ≤ d.session.line.length) :
    ∃ n skip o, d.revealRest w.manner text.length =
        ({ d with session := { d.session with revealed := n, skip }, outside := o }, none) ∧
      n ≤ d.session.line.length ∧ S.Keeps id d.outside o := by
  unfold revealRest
  split
  · obtain ⟨o, hshow, hk⟩ := hw.perform_eq
      (d := d.withSession fun s => { s with revealed := text.length, skip := false }) ho
      (.visible text.length) nofun
    exact ⟨text.length, false, o, hshow, Nat.le_of_eq (by rw [hline]), hk⟩
  · exact ⟨d.session.revealed, d.session.skip, d.outside, rfl, hlen, ho, rfl⟩

theorem runReveal_last (hw : S.Suits w) (ha : S.Attends w) (h : S.Sane d)
    (hfree : Free d.scheduler none d.focus) (hp : d.session.pending = []) {text : String}
    (hline : d.session.line = text) (hu : S.Under d (some d.session.line))
    (hlast : ¬(d.session.revealed < text.length ∧ d.session.skip = false))
    (hc : S.calm → S.Chronicle d (.line d.session.line) ∧ (S.sight d.outside).ears = 1 ∧
      d.session.active = true) :
    ∃ d', d.runReveal w.manner text () (lineRevealed w) = (d', .finish) ∧ S.Lands d d' .done ∧
      d'.session.revealing = false := by
  obtain ⟨n, skip, o, hrest, hn, hk⟩ := revealRest_eq hw h.ok hline h.revealed
  have hk' := hw.report (Log.debug ("Revealed line (" ++ toString text.length ++ " chars)")) o hk.1
  obtain ⟨d', he, hl, hr⟩ := lineRevealed_lands hw ha
    (d := { d with
      session := { d.session with revealed := n, skip := false, revealing := false }
      reveal := none
      outside := w.stage.report (Log.debug ("Revealed line (" ++ toString text.length ++
        " chars)")) o })
    ⟨⟨hk'.1, h.orderly, h.time, hn⟩, rfl, rfl, hfree⟩
    ((hu.outside (congrArg Sight.news (hk.trans hk').2)).heard
      (by simp [Notice.pace, Notice.lineRevealed])) hp fun hcalm => by
      obtain ⟨hch, hears, hact⟩ := hc hcalm
      have hsight := (hk.trans hk').2
      refine ⟨?_, by rw [hsight]; exact hears, hact, rfl, hp⟩
      unfold Venue.Chronicle
      rw [hsight]
      exact hch
  refine ⟨d', ?_, hl.after (.refl _), hr⟩
  unfold runReveal
  rw [if_neg hlast]
  simp only [hrest, Attempt.andThen_none]
  exact congrArg (runTo .finish) he

/-! ## The start of a reveal -/

/-- An empty line is complete at once; the task that should reveal it is over when it is noted. -/
theorem reveal_at_once (hw : S.Suits w) (ha : S.Attends w) (h : S.Sane d)
    (hfree : Free d.scheduler none d.focus) (hp : d.session.pending = [])
    (hempty : d.session.revealed = d.session.line.length) (hu : S.Under d (some d.session.line))
    (hc : S.calm → S.Chronicle d (.line d.session.line) ∧ (S.sight d.outside).ears = 1 ∧
      d.session.active = true) :
    ∃ d' i, (host w.stage).start (.str "reveal_line")
        (runReveal w.manner d.session.line () (lineRevealed w)) d = ((d', none), i) ∧
      S.Lands d { d' with reveal := some i } .done := by
  obtain ⟨d₂, hrun, hl, hr⟩ := runReveal_last hw ha
    (d := { d with scheduler := d.scheduler.enrol (.str "reveal_line") })
    ⟨h.ok, h.orderly.enrol _, h.time, h.revealed⟩ (hfree.alike (alike_enrol _ _)) hp rfl hu
    (fun hlt => Nat.lt_irrefl _ (hempty ▸ hlt.1)) hc
  -- The line was complete before the task could be noted, so the note is of a task that is over.
  have ht := hl.follows.task?_running (Scheduler.task?_enrol_new d.scheduler _) rfl
  have hover := Scheduler.isOver_finish ht
  refine ⟨_, _, host_start_finish w.stage _ _ hrun hl.follows, ?_, ?_, fun hcalm => ⟨?_, trivial⟩⟩
  · exact (hl.steady.reschedule (hl.steady.orderly.finish _) hl.steady.time
      (alike_finish ht rfl)).note hr hover
  · exact .settleNew hl.follows fun _ => nofun
  · exact ((hl.calm hcalm).1.reschedule (alike_finish ht rfl)).note hover

/-- The first character of a line is shown, and a task waits that shows the others. -/
theorem reveal_by_task (hw : S.Suits w) (h : S.Sane d) (hfree : Free d.scheduler none d.focus)
    (hact : d.session.active = true) (hphase : d.session.phase = .revealing)
    (hrev : d.session.revealing = true) (hskip : d.session.skip = false)
    (hp : d.session.pending = []) (hline : (S.sight d.outside).line = d.session.line)
    (hoff : (S.sight d.outside).offered = [])
    (hlt : d.session.revealed < d.session.line.length) (hu : S.Under d (some d.session.line))
    (hc : S.calm → S.Chronicle d (.line d.session.line) ∧ (S.sight d.outside).ears = 1) :
    ∃ d' i, (host w.stage).start (.str "reveal_line")
        (runReveal w.manner d.session.line () (lineRevealed w)) d = ((d', none), i) ∧
      S.Lands d { d' with reveal := some i } .done := by
  obtain ⟨o, hrun, hk⟩ := runReveal_next hw
    (d := { d with scheduler := d.scheduler.enrol (.str "reveal_line") }) h.ok d.session.line
    (lineRevealed w) hlt hskip
  obtain ⟨wakeTime, hwake⟩ := hw.wait _ h.time
  obtain ⟨s, t, hs, hos, hf, hown, hb, honly, -, hfocus⟩ := shelve_new h.orderly hfree
    (.str "reveal_line") (.reveal d.session.line ()) rfl wakeTime
    ((Request.wait w.manner.interval).wakeTick d.scheduler.tick)
    fun t ht _ hn => ⟨ht ▸ hw.pass _ _ _ h.time hwake, hn⟩
  refine ⟨_, _, host_start_suspend w.stage _ _ hrun (.refl _) hwake, ?_⟩
  have hsight : S.sight o = S.sight d.outside := hk.2
  rw [show Scheduler.shelve _ _ _ _ _ = s from hs]
  refine ⟨⟨⟨hk.1, hos, hf.time ▸ h.time, hlt⟩, ?_, fun _ => hrev, fun _ => ?_, fun _ => ?_,
    fun hr => ?_, some d.session.line, hu.outside (congrArg Sight.news hk.2), fun _ => ?_⟩, hf,
    fun hcalm => ⟨?_, trivial⟩⟩
  · exact ⟨fun _ => hrev, fun _ => hphase⟩
  · rw [hsight]
    exact ⟨hact, hp, hline, hoff⟩
  · exact ⟨_, t, rfl, hown, hb, honly, hfocus⟩
  · rw [show d.session.revealing = false from hr] at hrev
    cases hrev
  · show some d.session.line = if d.session.revealing then some d.session.line else none
    rw [hrev]
    rfl
  · obtain ⟨hch, hears⟩ := hc hcalm
    have hm : Session.moment { d.session with revealed := d.session.revealed + 1 } =
        .line d.session.line := by simp [Session.moment, hact, hrev]
    refine ⟨?_, ?_, fun _ => Or.inl hphase, fun hna => ?_, ?_, fun hne => absurd hp hne, ?_⟩
    · show History S.course (S.sight o).news (S.sight o).bows _ (Session.moment _)
      rw [hm, hsight]
      exact hch
    · show (S.sight o).ears = if d.session.active then 1 else 0
      rw [hsight, hact]
      exact hears
    · rw [show d.session.active = false from hna] at hact
      cases hact
    · simp [hphase, hp]
    · intro i u hi hbody
      by_cases hid : i = d.scheduler.tasks.length
      · subst hid
        rw [hown] at hi
        cases hi
        rw [hb] at hbody
        cases hbody
      · rw [honly i hid] at hi
        cases hi

theorem startReveal_lands (hw : S.Suits w) (ha : S.Attends w) (h : S.Sane d)
    (hfree : Free d.scheduler none d.focus) (hrev : d.reveal = none)
    (hact : d.session.active = true) (hphase : d.session.phase = .revealing)
    (hskip : d.session.skip = false) (hp : d.session.pending = [])
    (hoff : (S.sight d.outside).offered = []) (hu : S.Under d (some d.session.line))
    (hc : S.calm → S.Chronicle d (.line d.session.line) ∧ (S.sight d.outside).ears = 1) :
    ∃ d', d.startReveal w.manner d.session.line () (lineRevealed w) = (d', none) ∧
      S.Lands d d' .done := by
  obtain ⟨o, hshow, hk⟩ := hw.perform_eq
    (d := d.withSession fun s => { s with revealing := true, revealed := 0 }) h.ok
    (.line d.session.line) nofun
  obtain ⟨o', hvis, hk'⟩ := hw.perform_eq
    (d := { d.withSession fun s => { s with revealing := true, revealed := 0 } with outside := o })
    hk.1 (.visible 0) nofun
  have hsight : S.sight o' = { S.sight d.outside with line := d.session.line } := hk'.2.trans hk.2
  have hsane : S.Sane { d.withSession fun s => { s with revealing := true, revealed := 0 } with
      outside := o' } := ⟨hk'.1, h.orderly, h.time, Nat.zero_le _⟩
  have hunder : S.Under { d.withSession fun s => { s with revealing := true, revealed := 0 } with
      outside := o' } (some d.session.line) := hu.outside ((congrArg Sight.news hsight).trans rfl)
  have hcancel : d.cancelReveal w.stage = d := by
    unfold cancelReveal
    rw [hrev]
  have hch : S.calm → History S.course (S.sight o').news (S.sight o').bows d.story
      (.line d.session.line) ∧ (S.sight o').ears = 1 := fun hcalm => by
    rw [hsight]
    exact hc hcalm
  have hstart : ∃ d' i, (host w.stage).start (.str "reveal_line")
      (runReveal w.manner d.session.line () (lineRevealed w))
      { d.withSession fun s => { s with revealing := true, revealed := 0 } with outside := o' } =
        ((d', none), i) ∧ S.Lands { d.withSession fun s => { s with
          revealing := true, revealed := 0 } with outside := o' }
          { d' with reveal := some i } .done := by
    by_cases hempty : d.session.line.length = 0
    · exact reveal_at_once hw ha hsane hfree hp hempty.symm hunder fun hcalm =>
        ⟨(hch hcalm).1, (hch hcalm).2, hact⟩
    · exact reveal_by_task hw hsane hfree hact hphase rfl hskip hp (by rw [hsight]; rfl)
        (by rw [hsight]; exact hoff) (Nat.pos_of_ne_zero hempty) hunder hch
  obtain ⟨d', i, he, hl⟩ := hstart
  refine ⟨{ d' with reveal := some i }, ?_, hl.after (.refl _)⟩
  unfold startReveal
  simp only [hcancel]
  show (((perform w.stage (.line d.session.line) _).andThen _).andThen _) = _
  rw [hshow, Attempt.andThen_none, hvis, Attempt.andThen_none]
  simp only [he]
  rfl

end VisualNovel.Dialogue
