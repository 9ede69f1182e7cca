import VisualNovel.Proofs.Dialogue.Strays
import VisualNovel.Proofs.Scheduler.Chronicles
/-!
# Reveals in the course of time

Reveals are begun and cancelled in any way, and time passes in updates (`Reciter.Goes`). What is
done when a line is complete may be any of that but the last (`Reciter`). As long as no reveal goes
astray, the one that waits is the one that is noted, and when one has been begun, none from before
is run again (`Reciter.Goes.kept`).
-/
namespace VisualNovel
namespace Dialogue
variable {α ω : Type} {m : Manner Rat ω}

/-- What is done when a line is complete, with the notes of that: it begins and cancels reveals, and
leaves the tasks alone but for that. -/
structure Reciter (m : Manner Rat ω) (α : Type) where
  complete : α → Dialogue Rat α ω → Attempt (Dialogue Rat α ω) Fault
  notes : α → Dialogue Rat α ω → List (Note Rat)
  recites : ∀ after d, Recites m complete (notes after d) d (complete after d).1

/-- Once a task was started, none is run once more that was started before it. -/
def Supersedes (es : List (Note Rat)) : Prop :=
  es.Pairwise fun a b => a.what = .start → b.what = .resume → a.task ≤ b.task

theorem Supersedes.append {es new : List (Note Rat)} (h : Supersedes es)
    (hnew : ∀ n ∈ new, n.what ≠ .resume) : Supersedes (es ++ new) := by
  have hsecond (a b : Note Rat) (hb : b ∈ new) (hwhat : b.what = .resume) : a.task ≤ b.task :=
    absurd hwhat (hnew b hb)
  exact List.pairwise_append.2 ⟨h,
    List.pairwise_of_forall_mem_list fun a _ b hb _ hwhat => hsecond a b hb hwhat,
    fun a _ b hb _ hwhat => hsecond a b hb hwhat⟩

namespace Reciter
variable (k : Reciter m α)

/-- One run of a task. -/
def run (body : Activity α) (d : Dialogue Rat α ω) : Dialogue Rat α ω × Outcome Rat (Activity α) :=
  match body with
  | .reveal text after => d.runReveal m text after (k.complete after)
  | .focusChoice | .focusStart => (d, .finish)

/-- The notes of one run of a task. -/
def tell (body : Activity α) (d : Dialogue Rat α ω) : List (Note Rat) :=
  match body with
  | .reveal text after => runNotes m text (k.notes after) d
  | .focusChoice | .focusStart => []

theorem run_recites (body : Activity α) (d : Dialogue Rat α ω) :
    ∃ d₁, d₁.scheduler = d.scheduler ∧
      Recites m k.complete (k.tell body d) d₁ (k.run body d).1 := by
  cases body with
  | reveal text after =>
    obtain ⟨d₁, hscheduler, -, hrecites⟩ := runReveal_recites (k.recites after) d
    exact ⟨d₁, hscheduler, hrecites⟩
  | focusChoice | focusStart => exact ⟨d, rfl, .refl d⟩

theorem run_suspends {body : Activity α} {d : Dialogue Rat α ω}
    (h : (k.run body d).2.happening.suspends = true) : d.Aside (k.run body d).1 := by
  cases body with
  | reveal text after => exact runReveal_suspends h
  | focusChoice | focusStart => cases h

/-- What tasks do when they are run. -/
def conduct : (host m.stage).Conduct k.run where
  notes := k.tell
  acts body d := by
    obtain ⟨d₁, hscheduler, hrecites⟩ := k.run_recites body d
    exact .beside hscheduler hrecites.acts

/-- What can be brought about from a dialogue with its notes: reveals are begun and cancelled, and
in between the clock is advanced by updates. -/
inductive Goes (es₀ : List (Note Rat)) (d₀ : Dialogue Rat α ω) :
    List (Note Rat) → Dialogue Rat α ω → Prop
  | stay : Goes es₀ d₀ es₀ d₀
  | recites {es new : List (Note Rat)} {d d' : Dialogue Rat α ω} (hd : Goes es₀ d₀ es d)
      (h : Recites m k.complete new d d') : Goes es₀ d₀ (es ++ new) d'
  | update {es : List (Note Rat)} {d : Dialogue Rat α ω} {dt : Rat} (hd : Goes es₀ d₀ es d)
      (hdt : 0 ≤ dt) : Goes es₀ d₀
        (((host m.stage).beside _).update k.conduct.recording Activity.rounds dt (d, es)).1.2
        (((host m.stage).beside _).update k.conduct.recording Activity.rounds dt (d, es)).1.1

/-! ## What is kept -/

/-- Which task waits, and which have been run. -/
structure Kept (es : List (Note Rat)) (d : Dialogue Rat α ω) : Prop where
  tracks : d.Tracks
  supersedes : Supersedes es

variable {k} {es es₀ new : List (Note Rat)} {d d' d₀ : Dialogue Rat α ω} {id : TaskId}

theorem Kept.recites (h : Kept es d) (hes : Ledger es d.scheduler)
    (hd : Recites m k.complete new d d') (hstrays : strays es new = []) : Kept (es ++ new) d' :=
  ⟨hd.tracks hes h.tracks hstrays, h.supersedes.append hd.acts.not_resume⟩

/-- When the task that waits is run once more, none waits. -/
theorem not_waits_awaken (h : d.Tracks) (hid : d.scheduler.Waits id) {t : Task Rat (Activity α)}
    (ht : d.scheduler.task? id = some t) (j : TaskId) : ¬(d.scheduler.awaken id).Waits j := by
  intro hj
  by_cases hji : j = id
  · subst hji
    exact Scheduler.not_waits_of_running (Scheduler.task?_awaken_self ht) rfl hj
  · have hother := (h j (Scheduler.waits_modify_of_ne hji hj)).1
    rw [(h id hid).1] at hother
    exact hji (Option.some.inj hother).symm

/-- Behind the run of a task the one that waits is the one that is noted. -/
theorem resume_tracks (h : d.Tracks) {t : Task Rat (Activity α)} {body : Activity α}
    (ht : d.scheduler.task? id = some t) (hleft : t.left? = some body)
    (hes : Ledger es (d.scheduler.awaken id))
    (hstrays : strays es (k.tell body ((host m.stage).modify (·.awaken id) d)) = []) :
    ((host m.stage).resume k.run id d).1.Tracks := by
  have hid : d.scheduler.Waits id := Scheduler.waits_iff.2 ⟨t, body, ht, hleft⟩
  -- The task does what it does, …
  obtain ⟨e, he⟩ : ∃ e, (host m.stage).modify (·.awaken id) d = e := ⟨_, rfl⟩
  have hawaken : e.scheduler = d.scheduler.awaken id := by
    rw [← he]
    rfl
  obtain ⟨e₁, hscheduler, hrecites⟩ := k.run_recites body e
  have hsuspends : (k.run body e).2.happening.suspends = true → e.Aside (k.run body e).1 :=
    k.run_suspends
  rw [hawaken] at hscheduler
  have htracks : (k.run body e).1.Tracks := by
    refine hrecites.tracks (by rw [hscheduler]; exact hes) (.of_none fun j => ?_)
      (by rw [← he]; exact hstrays)
    rw [hscheduler]
    exact not_waits_awaken h hid ht j
  have hsequel : (d.scheduler.awaken id).Sequel (k.tell body e) (k.run body e).1.scheduler := by
    rw [← hscheduler]
    exact hrecites.acts.sequel (host_lawful m.stage).stores
  obtain ⟨⟨d₂, o⟩, hd₂⟩ : ∃ r, k.run body e = r := ⟨_, rfl⟩
  rw [hd₂] at htracks hsequel hsuspends
  have hrun : k.run body ((host m.stage).modify (·.awaken id) d) = (d₂, o) :=
    (congrArg (k.run body) he).trans hd₂
  -- … and its run is settled.
  have hreveal : ((host m.stage).resume k.run id d).1.reveal = d₂.reveal := by
    rw [Host.resume_eq ht hleft hrun]
    exact Host.settle_same (fun _ _ => rfl) (fun _ _ => rfl) t.wakeTime d.scheduler.tick o
  obtain ⟨d₃, hresume, hd₃⟩ :=
    Host.resume_sequel (host_lawful m.stage).stores ht hleft hrun hsequel
  rw [hresume] at hreveal ⊢
  have hsettled : d₃.scheduler = d₂.scheduler.modify id (Task.settle d.scheduler.tick o) := hd₃
  have hlen : d₃.scheduler.tasks.length = d₂.scheduler.tasks.length := by
    rw [hsettled]
    exact List.length_modify ..
  intro j hj
  rw [hsettled] at hj
  rw [hreveal, hlen]
  by_cases hji : j = id
  · subst hji
    have haside := hsuspends (Scheduler.suspends_of_waits (Scheduler.task?_modify_self ..) hj)
    rw [haside.reveal, haside.scheduler, hawaken, Scheduler.length_awaken, ← he]
    exact h j hid
  · exact htracks j (Scheduler.waits_modify_of_ne hji hj)

theorem keeps (k : Reciter m α) : k.conduct.Keeps fun es d => strays [] es = [] → Kept es d where
  resume es d id t body hkept _ ht hleft hledger hstrays := by
    have hagain : k.conduct.again id body d = [d.scheduler.note id .resume] ++
        (k.tell body ((host m.stage).modify (·.awaken id) d) ++ [d.scheduler.note id
          (k.run body ((host m.stage).modify (·.awaken id) d)).2.happening]) := rfl
    rw [hagain] at hstrays ⊢
    simp only [strays_append, List.append_eq_nil_iff, List.nil_append] at hstrays
    obtain ⟨hbefore, -, htold, -⟩ := hstrays
    obtain ⟨htracks, hsupersedes⟩ := hkept hbefore
    have hlast := (htracks id (Scheduler.waits_iff.2 ⟨t, body, ht, hleft⟩)).2
    have hresume : Supersedes (es ++ [d.scheduler.note id .resume]) := by
      refine List.pairwise_append.2
        ⟨hsupersedes, List.pairwise_singleton .., fun a ha b hb _ _ => ?_⟩
      have hknown : a.task < (d.scheduler.awaken id).tasks.length :=
        hledger.known a (List.mem_append_left _ ha)
      rw [Scheduler.length_awaken, ← hlast] at hknown
      rw [List.mem_singleton.1 hb]
      exact Nat.le_of_lt_succ hknown
    refine ⟨resume_tracks htracks ht hleft hledger htold, ?_⟩
    rw [← List.append_assoc]
    refine hresume.append fun n hn => ?_
    rcases List.mem_append.1 hn with hn | hn
    · exact (k.conduct.acts body _).not_resume n hn
    · rw [List.mem_singleton.1 hn]
      exact Outcome.happening_ne_resume _
  reschedule es d c hkept htasks hstrays :=
    ⟨(hkept hstrays).tracks.reschedule htasks, (hkept hstrays).supersedes⟩

theorem rounds_pos (body : Activity α) : 0 < body.rounds := by
  cases body with
  | reveal text after => exact Nat.succ_pos _
  | focusChoice | focusStart => exact Nat.one_pos

namespace Goes

theorem chronicle (hs : k.conduct.Chronicle Activity.rounds es₀ d₀) (h : k.Goes es₀ d₀ es d) :
    k.conduct.Chronicle Activity.rounds es d := by
  induction h with
  | stay => exact hs
  | recites _ h ih => exact ih.acts h.acts
  | update _ hdt ih => exact .update ih hdt

/-- To begin a reveal is one of the things that are done. -/
theorem start (h : k.Goes es₀ d₀ es d) (text : String) (after : α) :
    k.Goes es₀ d₀ (es ++ startNotes m text after (k.complete after) (k.notes after) d)
      (d.startReveal m text after (k.complete after)).1 :=
  h.recites (startReveal_recites text (k.recites after) d)

/-- To cancel the reveal is one of the things that are done. -/
theorem cancel (h : k.Goes es₀ d₀ es d) :
    k.Goes es₀ d₀ (es ++ d.cancelNotes) (d.cancelReveal m.stage) := by
  have hcancel : Recites m k.complete (d.cancelNotes ++ []) d (d.cancelReveal m.stage) :=
    .cancel (.refl _)
  rw [List.append_nil] at hcancel
  exact h.recites hcancel

/-- Time passes in an update that does not break off, and what is noted makes no difference. -/
theorem passes (hs : k.conduct.Chronicle Activity.rounds es₀ d₀) (h : k.Goes es₀ d₀ es d) {dt : Rat}
    (hdt : 0 ≤ dt) : ∃ new,
      ((host m.stage).beside _).update k.conduct.recording Activity.rounds dt (d, es) =
        ((((host m.stage).update k.run Activity.rounds dt d).1, es ++ new), none) ∧
      ((host m.stage).update k.run Activity.rounds dt d).2 = none ∧
      k.Goes es₀ d₀ (es ++ new) ((host m.stage).update k.run Activity.rounds dt d).1 := by
  obtain ⟨new, hupdates, -⟩ := (h.chronicle hs).next (host_lawful m.stage).stores rounds_pos hdt
  have hgoes := h.update hdt
  rw [hupdates.recorded] at hgoes
  exact ⟨new, hupdates.recorded, hupdates.unbroken, hgoes⟩

theorem extends_notes (hs : k.conduct.Chronicle Activity.rounds es₀ d₀) (h : k.Goes es₀ d₀ es d) :
    ∃ new, es = es₀ ++ new := by
  induction h with
  | stay => exact ⟨[], (List.append_nil _).symm⟩
  | @recites es new d d' _ _ ih =>
    obtain ⟨before, rfl⟩ := ih
    exact ⟨before ++ new, List.append_assoc ..⟩
  | @update es d dt hd hdt ih =>
    obtain ⟨before, rfl⟩ := ih
    obtain ⟨new, hupdate, -, -⟩ := hd.passes hs hdt
    exact ⟨before ++ new, by rw [hupdate]; exact List.append_assoc ..⟩

/-- As long as no reveal goes astray, the one that waits is the one that is noted. -/
theorem kept (hs : k.conduct.Chronicle Activity.rounds es₀ d₀) (hkept : Kept es₀ d₀)
    (h : k.Goes es₀ d₀ es d) : strays [] es = [] → Kept es d := by
  induction h with
  | stay => exact fun _ => hkept
  | @recites es new d d' hd h ih =>
    intro hstrays
    rw [strays_append, List.append_eq_nil_iff] at hstrays
    have hledger := ((hd.chronicle hs).ledger (host_lawful m.stage).stores rounds_pos).1
    exact (ih hstrays.1).recites hledger h hstrays.2
  | @update es d dt hd hdt ih =>
    obtain ⟨hledger, hidle⟩ := (hd.chronicle hs).ledger (host_lawful m.stage).stores rounds_pos
    obtain ⟨d', new, hupdate, -, -, hkept', -⟩ := Host.Conduct.serve_update
      (host_lawful m.stage).stores k.conduct k.keeps rounds_pos hledger hidle ih hdt
    rw [hupdate]
    exact hkept'

end Goes

/-! ## What follows from it -/

/-- Between two updates the tasks that have suspended and are not done are those that wait. -/
theorem mem_standing_iff_waits {β : Type} {c : Scheduler Rat β} (h : Ledger es c) (hidle : c.Idle) :
    id ∈ standing es ↔ c.Waits id := by
  rw [Scheduler.waits_iff]
  constructor
  · intro hid
    obtain ⟨-, t, ht, hd⟩ := h.of_mem_standing hid
    rcases h.listed.listed id t ht hd with hb | ⟨⟨rest, hleft, -⟩, -⟩
    · exact absurd hb (hidle id t ht)
    · exact ⟨t, rest, ht, hleft⟩
  · rintro ⟨t, rest, ht, hleft⟩
    obtain ⟨n, ns, hns, hn⟩ := (h.lives id t ht).eq_start_cons
    exact (h.mem_standing_iff hidle).2 ⟨⟨n, by simp [hns], hn⟩,
      (h.isEnded_eq ht).trans (Task.left?_eq_some.1 hleft).2⟩

/-- Between two updates a task is done if it does not wait. -/
theorem isDone_of_not_waits {β : Type} {c : Scheduler Rat β} (h : Ledger es c) (hidle : c.Idle)
    (hid : ¬c.Waits id) : c.isDone id = true := by
  by_contra hd
  rw [Bool.not_eq_true] at hd
  obtain ⟨t, ht⟩ : ∃ t, c.task? id = some t := by
    cases ht : c.task? id with
    | none => simp [Scheduler.isDone, ht] at hd
    | some t => exact ⟨t, rfl⟩
  rw [Scheduler.isDone_of_task? ht] at hd
  rcases h.listed.listed id t ht hd with hb | ⟨⟨rest, hleft, -⟩, -⟩
  · exact hidle id t ht hb
  · exact hid (Scheduler.waits_iff.2 ⟨t, rest, ht, hleft⟩)

end Reciter
end Dialogue
end VisualNovel
