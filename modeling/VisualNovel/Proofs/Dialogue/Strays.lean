import VisualNovel.Proofs.Dialogue.Recites
/-!
# Reveals that go astray

A line that is complete may begin another reveal. If it was complete at once, in the first run of
its task, then that task, which is over, is noted behind the other one, and the note of the other
one is lost. Such reveals are the strays of the notes (`strays`).

As long as there are none, at most one reveal waits, it was begun last, and it is the one that is
noted (`Tracks`): that is kept by whatever is done with reveals (`Recites.tracks`).
-/
namespace VisualNovel
variable {τ β : Type}

namespace Scheduler
variable {c c' : Scheduler Rat β} {id j : TaskId} {t : Task Rat β} {new : List (Note Rat)}

/-- A task waits for its next run. -/
def Waits (c : Scheduler τ β) (id : TaskId) : Prop := ∃ t, c.waits? (fun _ => true) id = some t

theorem waits_iff : c.Waits id ↔ ∃ t rest, c.task? id = some t ∧ t.left? = some rest := by
  unfold Waits
  simp only [waits?_eq_some, and_true]
  exact ⟨fun ⟨t, ht, rest, hleft⟩ => ⟨t, rest, ht, hleft⟩,
    fun ⟨t, rest, ht, hleft⟩ => ⟨t, ht, rest, hleft⟩⟩

theorem not_waits_of_running (ht : c.task? id = some t) (hb : t.body = .running) : ¬c.Waits id := by
  unfold Waits
  rw [waits?_of_running ht hb]
  simp

theorem waits_congr (h : c'.tasks = c.tasks) : c'.Waits id ↔ c.Waits id := by
  unfold Waits waits? task?
  rw [h]

theorem waits_enrol {name : Json} (h : (c.enrol name).Waits id) : c.Waits id := by
  unfold Waits at h ⊢
  rwa [waits?_enrol] at h

theorem waits_modify_of_ne {f : Task Rat β → Task Rat β} (hj : j ≠ id)
    (h : (c.modify id f).Waits j) : c.Waits j := by
  unfold Waits at h ⊢
  rwa [waits?_modify_of_ne c f hj] at h

/-- Nobody waits who did not wait before, but those that are new. -/
theorem Sequel.waits (h : c.Sequel new c') (hid : id < c.tasks.length) (hw : c'.Waits id) :
    c.Waits id := by
  obtain ⟨u, rest, hu, hleft⟩ := waits_iff.1 hw
  obtain ⟨t, ht⟩ := Scheduler.exists_task? hid
  rcases h.old id t ht with ⟨ht', -⟩ | ⟨-, ht', -⟩
  · exact waits_iff.2 ⟨u, rest, ht.trans (ht'.symm.trans hu), hleft⟩
  · rw [ht'] at hu
    obtain rfl := Option.some.inj hu
    rw [Task.left?_of_done (Task.cancel_done _)] at hleft
    cases hleft

/-- What is done stays so. -/
theorem Sequel.isDone (h : c.Sequel new c') (hid : id < c.tasks.length) (hd : c.isDone id = true) :
    c'.isDone id = true := by
  obtain ⟨t, ht⟩ := exists_task? hid
  rw [isDone_of_task? ht] at hd
  rcases h.old id t ht with ⟨ht', -⟩ | ⟨hd', -, -⟩
  · exact (isDone_of_task? ht').trans hd
  · rw [hd] at hd'
    cases hd'

theorem task?_place_self (c : Scheduler Rat β) (id tick : Nat) (o : Outcome Rat β) :
    (c.place id tick o).task? id = (c.task? id).map (Task.settle tick o) := by
  unfold place
  simp only
  split <;> exact task?_modify_self c id _

theorem waits_place_of_ne {tick : Nat} {o : Outcome Rat β} (hj : j ≠ id)
    (h : (c.place id tick o).Waits j) : c.Waits j := by
  refine waits_modify_of_ne (f := Task.settle tick o) hj ?_
  unfold place at h
  simp only at h
  split at h <;> exact h

theorem length_place (c : Scheduler Rat β) (id tick : Nat) (o : Outcome Rat β) :
    (c.place id tick o).tasks.length = c.tasks.length := by
  unfold place
  simp only
  split <;> exact List.length_modify ..

/-- A task waits behind its run only if that has ended with a request. -/
theorem suspends_of_waits {tick : Nat} {o : Outcome Rat β}
    (hid : c'.task? id = (c.task? id).map (Task.settle tick o)) (h : c'.Waits id) :
    o.happening.suspends = true := by
  obtain ⟨u, rest, hu, hleft⟩ := waits_iff.1 h
  rw [hid] at hu
  obtain ⟨v, -, rfl⟩ := Option.map_eq_some_iff.1 hu
  obtain ⟨r, rest', rfl, -⟩ := Task.settle_alive (Task.left?_eq_some.1 hleft).2
  rfl

/-- Who waits behind a run that has begun when nobody waited is new. -/
theorem Sequel.lt_of_waits {name : Json} (h : (c.enrol name).Sequel new c')
    (hnone : ∀ j, ¬c.Waits j) (hw : c'.Waits j) : c.tasks.length < j := by
  by_contra hle
  have hlen : (c.enrol name).tasks.length = c.tasks.length + 1 := by simp [enrol]
  refine hnone j (waits_enrol (h.waits ?_ hw))
  rw [hlen]
  exact Nat.lt_succ_of_le (Nat.not_lt.1 hle)

/-- What is started has not suspended as long as its first run goes on. -/
theorem Sequel.not_suspended {name : Json} {es : List (Note Rat)}
    (h : (c.enrol name).Sequel new c') (hes : Ledger es c) :
    c.tasks.length ∉ firstSuspended (es ++ (c.note c.tasks.length .start :: new)) := by
  intro hfirst
  obtain ⟨b, hb, hsuspends⟩ := mem_firstSuspended.1 hfirst
  rw [notesOf_append, hes.notesOf_new (Nat.le_refl _), List.nil_append,
    show notesOf c.tasks.length (c.note c.tasks.length .start :: new) =
      c.note c.tasks.length .start :: notesOf c.tasks.length new from notesOf_cons_self _ _,
    List.mem_cons] at hb
  rcases hb with rfl | hb
  · cases hsuspends
  · rcases h.old _ _ (task?_enrol_new c name) with ⟨-, hnone⟩ | ⟨-, -, hone⟩
    · rw [hnone] at hb
      cases hb
    · rw [hone, List.mem_singleton] at hb
      rw [hb] at hsuspends
      cases hsuspends

end Scheduler

/-! ## Strays -/

/-- When a task comes to its end in its first run, the tasks go astray that were started in that run
and are not done. -/
def leftBehind (es : List (Note Rat)) (z : Note Rat) : List TaskId :=
  if (z.what = .finish ∨ z.what = .fail) ∧ z.task ∉ firstSuspended es then
    ((es.filter (·.what = .start)).map (·.task)).filter fun id =>
      decide (z.task < id) && !isEnded es id
  else []

/-- The tasks that go astray in `new`, behind the notes `es`. -/
def strays (es : List (Note Rat)) : List (Note Rat) → List TaskId
  | [] => []
  | z :: new => leftBehind es z ++ strays (es ++ [z]) new

theorem mem_leftBehind {es : List (Note Rat)} {z : Note Rat} {id : TaskId} :
    id ∈ leftBehind es z ↔ ((z.what = .finish ∨ z.what = .fail) ∧ z.task ∉ firstSuspended es) ∧
      (∃ n ∈ notesOf id es, n.what = .start) ∧ z.task < id ∧ isEnded es id = false := by
  unfold leftBehind
  split
  · next h =>
    simp only [h, not_false_eq_true, and_self, true_and, List.mem_filter, List.mem_map, mem_notesOf,
      decide_eq_true_eq, Bool.and_eq_true, Bool.not_eq_true']
    constructor
    · rintro ⟨⟨n, ⟨hn, hwhat⟩, rfl⟩, hlt, hended⟩
      exact ⟨⟨n, ⟨hn, rfl⟩, hwhat⟩, hlt, hended⟩
    · rintro ⟨⟨n, ⟨hn, rfl⟩, hwhat⟩, hlt, hended⟩
      exact ⟨⟨n, ⟨hn, hwhat⟩, rfl⟩, hlt, hended⟩
  · next h =>
    constructor
    · exact nofun
    · rintro ⟨h', -⟩
      exact absurd h' h

/-- When a task has come to its end in its first run, newer tasks that wait are left behind. -/
theorem Scheduler.Sequel.mem_leftBehind {c c' : Scheduler Rat β} {name : Json}
    {es new : List (Note Rat)} {j : TaskId} {what : Happening Rat}
    (h : (c.enrol name).Sequel new c') (hes : Ledger es c)
    (hes' : Ledger (es ++ (c.note c.tasks.length .start :: new)) c') (hw : c'.Waits j)
    (hj : c.tasks.length < j) (hwhat : what = .finish ∨ what = .fail) :
    j ∈ leftBehind (es ++ (c.note c.tasks.length .start :: new)) (c.note c.tasks.length what) := by
  obtain ⟨t, rest, ht, hleft⟩ := waits_iff.1 hw
  obtain ⟨n, ns, hns, hn⟩ := (hes'.lives j t ht).eq_start_cons
  have hended := (hes'.isEnded_eq ht).trans (Task.left?_eq_some.1 hleft).2
  exact VisualNovel.mem_leftBehind.2
    ⟨⟨hwhat, h.not_suspended hes⟩, ⟨n, by simp [hns], hn⟩, hj, hended⟩

theorem strays_append (es new new' : List (Note Rat)) :
    strays es (new ++ new') = strays es new ++ strays (es ++ new) new' := by
  induction new generalizing es with
  | nil => simp [strays]
  | cons z new ih => simp [strays, ih, List.append_assoc]

namespace Dialogue
variable {α ω : Type} {m : Manner Rat ω}
  {complete : α → Dialogue Rat α ω → Attempt (Dialogue Rat α ω) Fault}
  {d d' : Dialogue Rat α ω} {es new inner : List (Note Rat)}

/-- If a task waits, then it is noted, and it is the last one. -/
def Tracks (d : Dialogue Rat α ω) : Prop :=
  ∀ id, d.scheduler.Waits id → d.reveal = some id ∧ id + 1 = d.scheduler.tasks.length

theorem Tracks.of_none (h : ∀ id, ¬d.scheduler.Waits id) : d.Tracks := fun id hid =>
  absurd hid (h id)

theorem Tracks.not_waits (h : d.Tracks) (hfree : d.reveal = none) (id : TaskId) :
    ¬d.scheduler.Waits id := fun hid => by
  have hnoted := (h id hid).1
  rw [hfree] at hnoted
  cases hnoted

theorem Tracks.aside (h : d.Tracks) (hd : d.Aside d') : d'.Tracks := by
  unfold Tracks
  rw [hd.scheduler, hd.reveal]
  exact h

theorem Tracks.reschedule (h : d.Tracks) {c : Scheduler Rat (Activity α)}
    (hc : c.tasks = d.scheduler.tasks) : ({ d with scheduler := c } : Dialogue Rat α ω).Tracks := by
  intro id hid
  show d.reveal = some id ∧ id + 1 = c.tasks.length
  rw [hc]
  exact h id ((Scheduler.waits_congr hc).1 hid)

/-- When a reveal is cancelled, none waits. -/
theorem Tracks.cancel (h : d.Tracks) (st : Stage ω) (id : TaskId) :
    ¬(d.cancelReveal st).scheduler.Waits id := by
  intro hid
  unfold cancelReveal at hid
  cases hr : d.reveal with
  | none =>
    rw [hr] at hid
    exact h.not_waits hr id hid
  | some i =>
    rw [hr] at hid
    have hcancel : ((host st).cancel i d).1.scheduler =
        d.scheduler.modify i fun t => if t.done then t else t.cancel :=
      Host.scheduler_cancel (host_lawful st) i d
    have hwaits : ((host st).cancel i d).1.scheduler.Waits id := hid
    rw [hcancel] at hwaits
    by_cases hi : id = i
    · subst hi
      obtain ⟨u, rest, hu, hleft⟩ := Scheduler.waits_iff.1 hwaits
      rw [Scheduler.task?_modify_self] at hu
      obtain ⟨t, -, rfl⟩ := Option.map_eq_some_iff.1 hu
      have hd := (Task.left?_eq_some.1 hleft).2
      cases htd : t.done <;> simp [htd] at hd
    · have hnoted := (h id (Scheduler.waits_modify_of_ne hi hwaits)).1
      rw [hr] at hnoted
      cases hnoted
      exact hi rfl

/-- When a reveal is begun, nothing else waits but what its completion has left behind. -/
theorem Tracks.begin (h : d.Tracks) (hfree : d.reveal = none) (hes : Ledger es d.scheduler)
    {text : String} {after : α}
    (hrun : Recites m complete inner (d.enrolled m)
      ((d.enrolled m).runReveal m text after (complete after)).1)
    (hstrays : leftBehind (es ++ (d.scheduler.note d.scheduler.tasks.length .start :: inner))
      (d.scheduler.note d.scheduler.tasks.length
        ((d.enrolled m).runReveal m text after (complete after)).2.happening) = []) :
    (d.beginReveal m text after (complete after)).Tracks := by
  have hsuspends : ((d.enrolled m).runReveal m text after (complete after)).2.happening.suspends =
      true → (d.enrolled m).Aside ((d.enrolled m).runReveal m text after (complete after)).1 :=
    runReveal_suspends
  obtain ⟨⟨d₂, o⟩, hd₂⟩ : ∃ r, (d.enrolled m).runReveal m text after (complete after) = r :=
    ⟨_, rfl⟩
  rw [hd₂] at hrun hstrays hsuspends
  have hsequel : (d.scheduler.enrol (.str "reveal_line")).Sequel inner d₂.scheduler :=
    hrun.acts.sequel (host_lawful m.stage).stores
  have hplace : (d.beginReveal m text after (complete after)).scheduler =
      d₂.scheduler.place d.scheduler.tasks.length d.scheduler.tick o :=
    (Host.Acts.started (host_lawful m.stage).stores hd₂ hsequel).2
  intro j hj
  rw [hplace] at hj ⊢
  by_cases hji : j = d.scheduler.tasks.length
  · -- It has suspended in its first run, and so nothing was begun in that.
    subst hji
    have haside := hsuspends (Scheduler.suspends_of_waits (Scheduler.task?_place_self ..) hj)
    refine ⟨rfl, ?_⟩
    rw [Scheduler.length_place, haside.scheduler]
    simp [enrolled, Host.modify, host, Scheduler.enrol]
  · have hwaits := Scheduler.waits_place_of_ne hji hj
    have hlt := hsequel.lt_of_waits (h.not_waits hfree) hwaits
    have hledger : Ledger (es ++ (d.scheduler.note d.scheduler.tasks.length .start :: inner))
        d₂.scheduler := by
      rw [List.append_cons]
      exact hrun.acts.ledger (host_lawful m.stage).stores (hes.enrol _)
    have hends : o.happening = .finish ∨ o.happening = .fail := by
      cases o with
      | finish => exact .inl rfl
      | fail => exact .inr rfl
      | suspend r rest =>
        -- As long as the task itself waits, nothing was begun in its run.
        have hsame : d₂.scheduler = d.scheduler.enrol (.str "reveal_line") :=
          (hsuspends rfl).scheduler
        rw [hsame] at hwaits
        exact absurd (Scheduler.waits_enrol hwaits) (h.not_waits hfree j)
    have hmem := hsequel.mem_leftBehind hes hledger hwaits hlt hends
    rw [hstrays] at hmem
    cases hmem

/-- Whatever is done with reveals, the one that waits is noted, if none goes astray. -/
theorem Recites.tracks (h : Recites m complete new d d') (hes : Ledger es d.scheduler)
    (hd : d.Tracks) (hstrays : strays es new = []) : d'.Tracks := by
  induction h generalizing es with
  | refl => exact hd
  | aside haside _ ih =>
    exact ih (by rw [haside.scheduler]; exact hes) (hd.aside haside) hstrays
  | @cancel later d d' _ ih =>
    rw [strays_append, List.append_eq_nil_iff] at hstrays
    have hledger := (cancelReveal_acts m.stage d).ledger (host_lawful m.stage).stores hes
    exact ih hledger (.of_none (hd.cancel m.stage)) hstrays.2
  | @start inner later d d' text after hfree hrun _ _ ihlater =>
    have hacts := (Recites.start text after hfree hrun (.refl _)).acts
    rw [List.append_nil] at hacts
    have hledger := hacts.ledger (host_lawful m.stage).stores hes
    simp only [strays_append, List.append_eq_nil_iff] at hstrays
    obtain ⟨⟨-, hlast⟩, hlater⟩ := hstrays
    have hleft : leftBehind (es ++ (d.scheduler.note d.scheduler.tasks.length .start :: inner))
        (d.scheduler.note d.scheduler.tasks.length
          ((d.enrolled m).runReveal m text after (complete after)).2.happening) = [] := by
      simpa [strays] using hlast
    exact ihlater hledger (hd.begin hfree hes hrun hleft) hlater

end Dialogue
end VisualNovel
