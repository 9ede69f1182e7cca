import VisualNovel.Proofs.Scheduler.Lives
import VisualNovel.Proofs.Scheduler.Rounds
/-!
# The ledger of a scheduler

The notes of all tasks together are the ledger of a scheduler if every task lives on its own notes
and the tasks that are not done are listed in the order in which the notes say that they first
suspended (`Ledger`). There is one lemma for each thing that changes a scheduler, and each adds the
note that belongs to it: `Ledger.enrol`, `Ledger.awaken`, `Ledger.settle`, `Ledger.settleNew` and
`Ledger.cancel`. The clock may advance when no task is being run (`Ledger.advance`), and tasks that
are done may be forgotten (`Ledger.sweep`).
-/
namespace VisualNovel
variable {τ β : Type}

/-- By the notes a task is done. -/
def isEnded (es : List (Note τ)) (id : TaskId) : Bool :=
  es.any fun n => decide (n.task = id) && n.what.ends

/-- The tasks that have suspended, in the order in which they first did. -/
def firstSuspended (es : List (Note τ)) : List TaskId :=
  ((es.filter (·.what.suspends)).map (·.task)).eraseDups

/-- The tasks that have suspended and are not done, in the order in which they first suspended. -/
def standing (es : List (Note τ)) : List TaskId :=
  (firstSuspended es).filter fun id => !isEnded es id

/-- The tasks that are listed and not done are those that have suspended, in that order. -/
def InOrder (es : List (Note τ)) (live : List TaskId) : Prop :=
  (live.filter fun id => !isEnded es id) = standing es

/-- A note of what happens to a task now. -/
def Scheduler.note (c : Scheduler τ β) (id : TaskId) (what : Happening τ) : Note τ :=
  ⟨c.time, c.tick, id, what⟩

/-- The notes say how the scheduler came to be what it is. -/
structure Ledger (es : List (Note Rat)) (c : Scheduler Rat β) : Prop where
  lives : ∀ id t, c.task? id = some t → Life id (notesOf id es) t
  known : ∀ n ∈ es, n.task < c.tasks.length
  past : ∀ n ∈ es, n.time ≤ c.time ∧ n.tick ≤ c.tick
  /-- A task that is being run has been run since the clock last advanced. -/
  present : ∀ id t, c.task? id = some t → t.body = .running →
    ∃ n ∈ notesOf id es, n.what.runs = true ∧ n.time = c.time ∧ n.tick = c.tick
  order : InOrder es c.live
  listed : c.Listed

/-! ## The order of the first suspensions -/

theorem isEnded_snoc (es : List (Note τ)) (n : Note τ) (id : TaskId) :
    isEnded (es ++ [n]) id = (isEnded es id || (decide (n.task = id) && n.what.ends)) := by
  simp [isEnded]

theorem isEnded_eq_true_iff {es : List (Note τ)} {id : TaskId} :
    isEnded es id = true ↔ ∃ n ∈ notesOf id es, n.what.ends = true := by
  simp [isEnded, mem_notesOf, and_assoc]

theorem mem_firstSuspended {es : List (Note τ)} {id : TaskId} :
    id ∈ firstSuspended es ↔ ∃ n ∈ notesOf id es, n.what.suspends = true := by
  simp only [firstSuspended, List.mem_eraseDups, List.mem_map, List.mem_filter, mem_notesOf]
  grind

theorem firstSuspended_snoc_of_mem {es : List (Note τ)} {n : Note τ}
    (h : n.what.suspends = true → n.task ∈ firstSuspended es) :
    firstSuspended (es ++ [n]) = firstSuspended es := by
  unfold firstSuspended
  rw [List.filter_append, List.map_append, List.eraseDups_append]
  cases hs : n.what.suspends with
  | false => simp [hs]
  | true =>
    have hmem := List.mem_eraseDups.1 (h hs)
    have hnone : (List.map (·.task) ([n].filter (·.what.suspends))).removeAll
        ((es.filter (·.what.suspends)).map (·.task)) = [] := by
      simpa [hs, List.removeAll, and_assoc] using hmem
    rw [hnone]
    simp

theorem firstSuspended_snoc_new {es : List (Note τ)} {n : Note τ} (hs : n.what.suspends = true)
    (h : n.task ∉ firstSuspended es) :
    firstSuspended (es ++ [n]) = firstSuspended es ++ [n.task] := by
  unfold firstSuspended
  rw [List.filter_append, List.map_append, List.eraseDups_append]
  have hmem : n.task ∉ (es.filter (·.what.suspends)).map (·.task) := fun hm =>
    h (List.mem_eraseDups.2 hm)
  have hone : (List.map (·.task) ([n].filter (·.what.suspends))).removeAll
      ((es.filter (·.what.suspends)).map (·.task)) = [n.task] := by
    simpa [hs, List.removeAll] using hmem
  rw [hone]
  rfl

theorem filter_isEnded_snoc (es : List (Note τ)) (n : Note τ) (ids : List TaskId) :
    (ids.filter fun id => !isEnded (es ++ [n]) id) =
      (ids.filter fun id => !isEnded es id).filter fun id => !isEnded (es ++ [n]) id := by
  rw [List.filter_filter]
  refine List.filter_congr fun id _ => ?_
  rw [isEnded_snoc]
  cases isEnded es id <;> simp

namespace InOrder
variable {es : List (Note τ)} {live : List TaskId} {n : Note τ}

/-- One who suspends again, or does so when it is done, does not change the order. -/
theorem snoc (h : InOrder es live) (hn : n.what.suspends = true →
    isEnded es n.task = true ∨ n.task ∈ firstSuspended es) : InOrder (es ++ [n]) live := by
  have hsame : ((firstSuspended (es ++ [n])).filter fun id => !isEnded (es ++ [n]) id) =
      (firstSuspended es).filter fun id => !isEnded (es ++ [n]) id := by
    by_cases hmem : n.what.suspends = true → n.task ∈ firstSuspended es
    · rw [firstSuspended_snoc_of_mem hmem]
    · obtain ⟨hs, hnew⟩ := Classical.not_imp.1 hmem
      have hended := (hn hs).resolve_right hnew
      rw [firstSuspended_snoc_new hs hnew, List.filter_append]
      simp [isEnded_snoc, hended]
  unfold InOrder standing at h ⊢
  rw [hsame, filter_isEnded_snoc, h, ← filter_isEnded_snoc]

/-- One who suspends for the first time comes last. -/
theorem enlist (h : InOrder es live) (hs : n.what.suspends = true)
    (hnew : n.task ∉ firstSuspended es) : InOrder (es ++ [n]) (live ++ [n.task]) := by
  unfold InOrder standing at h ⊢
  rw [firstSuspended_snoc_new hs hnew, List.filter_append, List.filter_append, filter_isEnded_snoc,
    h, ← filter_isEnded_snoc]

theorem mem_iff (h : InOrder es live) {id : TaskId} (hid : isEnded es id = false) :
    id ∈ live ↔ id ∈ firstSuspended es := by
  have hmem := congrArg (id ∈ ·) h
  simpa [standing, hid] using hmem

/-- Those that are done may be forgotten. -/
theorem sweep (h : InOrder es live) {p : TaskId → Bool} (hp : ∀ id ∈ live, p id = !isEnded es id) :
    InOrder es (live.filter p) := by
  unfold InOrder standing at h ⊢
  rw [List.filter_congr hp, List.filter_filter, ← h]
  simp

end InOrder

namespace Ledger
variable {es : List (Note Rat)} {c : Scheduler Rat β} {id : TaskId} {t : Task Rat β}

theorem empty : Ledger [] (Scheduler.empty : Scheduler Rat β) where
  lives id t ht := by cases ht
  known n hn := by cases hn
  past n hn := by cases hn
  present id t ht := by cases ht
  order := rfl
  listed := ⟨List.nodup_nil, by simp [Scheduler.empty], fun id t ht => by cases ht⟩

/-- A task is done when a note says so. -/
theorem isEnded_eq (h : Ledger es c) (ht : c.task? id = some t) : isEnded es id = t.done := by
  rw [Bool.eq_iff_iff, isEnded_eq_true_iff, (h.lives id t ht).done_iff]

theorem past_notesOf (h : Ledger es c) (id : TaskId) :
    ∀ n ∈ notesOf id es, n.time ≤ c.time ∧ n.tick ≤ c.tick := fun n hn =>
  h.past n (mem_notesOf.1 hn).1

/-- A number that no task has yet is in no note. -/
theorem notesOf_new (h : Ledger es c) (hid : c.tasks.length ≤ id) : notesOf id es = [] := by
  rw [List.eq_nil_iff_forall_not_mem]
  intro n hn
  obtain ⟨hmem, rfl⟩ := mem_notesOf.1 hn
  exact absurd (h.known n hmem) (Nat.not_lt.2 hid)

/-- A task that is not done is listed if it has suspended before. -/
theorem mem_live_iff (h : Ledger es c) (ht : c.task? id = some t) (hd : t.done = false) :
    id ∈ c.live ↔ id ∈ firstSuspended es :=
  h.order.mem_iff ((h.isEnded_eq ht).trans hd)

/-- A task with a note is there. -/
theorem exists_task (h : Ledger es c) {n : Note Rat} (hn : n ∈ notesOf id es) :
    ∃ t, c.task? id = some t := by
  obtain ⟨hmem, rfl⟩ := mem_notesOf.1 hn
  exact Scheduler.exists_task? (h.known n hmem)

/-- A task that a note has ended is done. -/
theorem isDone_of_ends (h : Ledger es c) {n : Note Rat} (hn : n ∈ es) (hends : n.what.ends = true) :
    c.isDone n.task = true := by
  have hmem : n ∈ notesOf n.task es := mem_notesOf.2 ⟨hn, rfl⟩
  obtain ⟨t, ht⟩ := h.exists_task hmem
  rw [Scheduler.isDone_of_task? ht]
  exact (h.lives n.task t ht).done_iff.2 ⟨n, hmem, hends⟩

/-- The notes of a task come one after the other as they do in a life. -/
theorem pairwise (h : Ledger es c) (id : TaskId) : (notesOf id es).Pairwise Note.Lets := by
  cases hns : notesOf id es with
  | nil => exact .nil
  | cons n ns =>
    have hn : n ∈ notesOf id es := by
      rw [hns]
      exact List.mem_cons_self ..
    obtain ⟨t, ht⟩ := h.exists_task hn
    rw [← hns]
    exact (h.lives id t ht).pairwise

/-- A task that has suspended and is not done is listed. -/
theorem of_mem_standing (h : Ledger es c) (hid : id ∈ standing es) :
    id ∈ c.live ∧ ∃ t, c.task? id = some t ∧ t.done = false := by
  obtain ⟨hmem, hended⟩ := List.mem_filter.1 hid
  rw [Bool.not_eq_true'] at hended
  obtain ⟨n, hn, -⟩ := mem_firstSuspended.1 hmem
  obtain ⟨t, ht⟩ := h.exists_task hn
  have hd : t.done = false := (h.isEnded_eq ht).symm.trans hended
  exact ⟨(h.mem_live_iff ht hd).2 hmem, t, ht, hd⟩

/-- The tasks that have suspended and are not done are all that were started and are not done, when
none is being run. -/
theorem mem_standing_iff (h : Ledger es c) (hidle : c.Idle) :
    id ∈ standing es ↔ (∃ n ∈ notesOf id es, n.what = .start) ∧ isEnded es id = false := by
  constructor
  · intro hid
    obtain ⟨-, t, ht, hd⟩ := h.of_mem_standing hid
    obtain ⟨n, rest, hns, hn⟩ := (h.lives id t ht).eq_start_cons
    exact ⟨⟨n, by simp [hns], hn⟩, (h.isEnded_eq ht).trans hd⟩
  · rintro ⟨⟨n, hn, -⟩, hended⟩
    obtain ⟨t, ht⟩ := h.exists_task hn
    have hd : t.done = false := (h.isEnded_eq ht).symm.trans hended
    rcases h.listed.listed id t ht hd with hb | ⟨-, hlive⟩
    · exact absurd hb (hidle id t ht)
    · exact List.mem_filter.2 ⟨(h.mem_live_iff ht hd).1 hlive, by rw [hended]; rfl⟩

theorem nodup_standing (h : Ledger es c) : (standing es).Nodup := by
  have horder : (c.live.filter fun id => !isEnded es id) = standing es := h.order
  rw [← horder]
  exact h.listed.nodup.filter _

/-- The active tasks are those that have suspended and are not done. -/
theorem active_eq (h : Ledger es c) : c.active.map some = (standing es).map c.task? := by
  have horder : (c.live.filter fun id => !isEnded es id) = standing es := h.order
  have hlive : ∀ id ∈ c.live, ∃ t, c.task? id = some t := fun id hid =>
    Scheduler.exists_task? (h.listed.bound id hid)
  rw [← horder]
  unfold Scheduler.active
  generalize c.live = ids at hlive
  induction ids with
  | nil => rfl
  | cons id ids ih =>
    obtain ⟨t, ht⟩ := hlive id (List.mem_cons_self ..)
    have ih' := ih fun j hj => hlive j (List.mem_cons_of_mem _ hj)
    rw [List.filterMap_cons, List.filter_cons, h.isEnded_eq ht, ht]
    cases hd : t.done with
    | true => simpa [Option.filter, hd] using ih'
    | false => simpa [Option.filter, hd, ht] using ih'

theorem length_active (h : Ledger es c) : c.active.length = (standing es).length := by
  have hall := congrArg List.length h.active_eq
  rwa [List.length_map, List.length_map] at hall

/-! ## What changes a scheduler -/

theorem notesOf_note (c : Scheduler τ β) (id : TaskId) (what : Happening τ) (j : TaskId) :
    notesOf j [c.note id what] = if id = j then [c.note id what] else [] := by
  by_cases hj : id = j
  · rw [if_pos hj]
    exact List.filter_cons_of_pos (decide_eq_true hj)
  · rw [if_neg hj]
    exact List.filter_cons_of_neg fun hm => hj (of_decide_eq_true hm)

/-- A task is changed, and what happened to it is noted. -/
theorem write (h : Ledger es c) (ht : c.task? id = some t) {what : Happening Rat}
    {f : Task Rat β → Task Rat β} {live : List TaskId}
    (hlife : Life id (notesOf id es ++ [c.note id what]) (f t))
    (hnow : (f t).body = .running → what.runs = true ∨ t.body = .running)
    (horder : InOrder (es ++ [c.note id what]) live)
    (hlisted : Scheduler.Listed { c.modify id f with live }) :
    Ledger (es ++ [c.note id what]) { c.modify id f with live } where
  lives j u hu := by
    have hu' : (c.modify id f).task? j = some u := hu
    rw [notesOf_append, notesOf_note]
    by_cases hj : id = j
    · subst hj
      rw [Scheduler.task?_modify_self, ht] at hu'
      cases hu'
      rw [if_pos rfl]
      exact hlife
    · rw [Scheduler.task?_modify_of_ne c f (Ne.symm hj)] at hu'
      rw [if_neg hj, List.append_nil]
      exact h.lives j u hu'
  known n hn := by
    have hlen : (c.modify id f).tasks.length = c.tasks.length := List.length_modify ..
    show n.task < (c.modify id f).tasks.length
    rw [hlen]
    rcases List.mem_append.1 hn with hn | hn
    · exact h.known n hn
    · rw [List.mem_singleton.1 hn]
      exact Scheduler.task?_lt ht
  past n hn := by
    rcases List.mem_append.1 hn with hn | hn
    · exact h.past n hn
    · rw [List.mem_singleton.1 hn]
      exact ⟨le_refl c.time, Nat.le_refl c.tick⟩
  present j u hu hb := by
    have hu' : (c.modify id f).task? j = some u := hu
    rw [notesOf_append]
    by_cases hj : id = j
    · subst hj
      rw [Scheduler.task?_modify_self, ht] at hu'
      cases hu'
      rcases hnow hb with hruns | hb
      · refine ⟨c.note id what, List.mem_append_right _ ?_, hruns, rfl, rfl⟩
        simp [notesOf_note]
      · obtain ⟨n, hn, hnow⟩ := h.present id t ht hb
        exact ⟨n, List.mem_append_left _ hn, hnow⟩
    · rw [Scheduler.task?_modify_of_ne c f (Ne.symm hj)] at hu'
      obtain ⟨n, hn, hnow⟩ := h.present j u hu' hb
      exact ⟨n, List.mem_append_left _ hn, hnow⟩
  order := horder
  listed := hlisted

/-- A task is started. -/
theorem enrol (h : Ledger es c) (name : Json) :
    Ledger (es ++ [c.note c.tasks.length .start]) (c.enrol name) where
  lives j u hu := by
    rw [notesOf_append, notesOf_note]
    rcases Nat.lt_trichotomy j c.tasks.length with hlt | rfl | hgt
    · rw [Scheduler.task?_enrol_of_lt hlt] at hu
      rw [if_neg (Nat.ne_of_gt hlt), List.append_nil]
      exact h.lives j u hu
    · rw [Scheduler.task?_enrol_new] at hu
      cases hu
      rw [h.notesOf_new (Nat.le_refl _), if_pos rfl]
      exact .start c.time c.tick name
    · rw [Scheduler.task?_enrol_of_gt hgt] at hu
      cases hu
  known n hn := by
    have hlen : (c.enrol name).tasks.length = c.tasks.length + 1 := by simp [Scheduler.enrol]
    rw [hlen]
    rcases List.mem_append.1 hn with hn | hn
    · exact Nat.lt_succ_of_lt (h.known n hn)
    · rw [List.mem_singleton.1 hn]
      exact Nat.lt_succ_self _
  past n hn := by
    rcases List.mem_append.1 hn with hn | hn
    · exact h.past n hn
    · rw [List.mem_singleton.1 hn]
      exact ⟨le_refl c.time, Nat.le_refl c.tick⟩
  present j u hu hb := by
    rw [notesOf_append, notesOf_note]
    rcases Nat.lt_trichotomy j c.tasks.length with hlt | rfl | hgt
    · rw [Scheduler.task?_enrol_of_lt hlt] at hu
      obtain ⟨n, hn, hnow⟩ := h.present j u hu hb
      exact ⟨n, List.mem_append_left _ hn, hnow⟩
    · exact ⟨c.note c.tasks.length .start, by simp, rfl, rfl, rfl⟩
    · rw [Scheduler.task?_enrol_of_gt hgt] at hu
      cases hu
  order := h.order.snoc nofun
  listed := Scheduler.Orderly.enrol h.listed name

/-- A task that waits and is due is run once more, unless it was started in this very tick. -/
theorem awaken (h : Ledger es c) (ht : c.task? id = some t) {rest : β} (hleft : t.left? = some rest)
    (htick : t.wakeTick ≤ c.tick) (htime : t.wakeTime ≤ c.time + Clock.slack Rat)
    (hbegun : ∀ n ∈ notesOf id es, n.what = .start → n.tick < c.tick) :
    Ledger (es ++ [c.note id .resume]) (c.modify id fun t => { t with body := .running }) :=
  h.write ht ((h.lives id t ht).resume (h.past_notesOf id) hbegun hleft htick htime)
    (fun _ => .inl rfl) (h.order.snoc nofun)
    (Scheduler.Orderly.modify h.listed id fun _ _ _ => .inl rfl)

/-- A run of a task that was listed has ended. -/
theorem settle (h : Ledger es c) (ht : c.task? id = some t) (hb : t.body = .running)
    (hid : id ∈ c.live) (o : Outcome Rat β) :
    Ledger (es ++ [c.note id o.happening]) (c.modify id (Task.settle c.tick o)) :=
  h.write ht ((h.lives id t ht).settle (h.past_notesOf id) hb (h.present id t ht hb) o)
    (fun hr => absurd hr (t.settle_ne_running c.tick o))
    (h.order.snoc fun _ => by
      cases hd : t.done with
      | true => exact .inl ((h.isEnded_eq ht).trans hd)
      | false => exact .inr ((h.mem_live_iff ht hd).1 hid))
    (Scheduler.Listed.settle h.listed (Task.settle_awaits c.tick o) (.inl hid))

/-- The first run of a task has ended, and it is done. -/
theorem settleDone (h : Ledger es c) (ht : c.task? id = some t) (hb : t.body = .running)
    {o : Outcome Rat β} (hd : (t.settle c.tick o).done = true) :
    Ledger (es ++ [c.note id o.happening]) (c.modify id (Task.settle c.tick o)) :=
  h.write ht ((h.lives id t ht).settle (h.past_notesOf id) hb (h.present id t ht hb) o)
    (fun hr => absurd hr (t.settle_ne_running c.tick o))
    (h.order.snoc fun hs => by
      rw [Task.settle_done, Bool.or_eq_true] at hd
      refine .inl ((h.isEnded_eq ht).trans (hd.resolve_right ?_))
      cases o <;> simp_all [Scheduler.note, Outcome.happening, Happening.suspends, Happening.ends])
    (Scheduler.Listed.settle h.listed (Task.settle_awaits c.tick o) (.inr fun u hu => by
      rw [ht] at hu
      cases hu
      exact hd))

/-- The first run of a task has ended, and it is listed from now on. -/
theorem settleNew (h : Ledger es c) (ht : c.task? id = some t) (hb : t.body = .running)
    (hid : id ∉ c.live) {o : Outcome Rat β} (hd : (t.settle c.tick o).done = false) :
    Ledger (es ++ [c.note id o.happening]) ((c.modify id (Task.settle c.tick o)).enlist id) :=
  h.write ht ((h.lives id t ht).settle (h.past_notesOf id) hb (h.present id t ht hb) o)
    (fun hr => absurd hr (t.settle_ne_running c.tick o))
    (by
      obtain ⟨r, rest, rfl, hd', -⟩ := Task.settle_alive hd
      exact h.order.enlist rfl fun hmem => hid ((h.mem_live_iff ht hd').2 hmem))
    (Scheduler.Orderly.settleNew h.listed ht hid fun hd => by
      obtain ⟨rest, hleft⟩ := t.settle_awaits c.tick o hd
      exact ⟨rest, hleft, trivial⟩)

/-- A task is cancelled. -/
theorem cancel (h : Ledger es c) (ht : c.task? id = some t) (hd : t.done = false) :
    Ledger (es ++ [c.note id .cancel]) (c.modify id Task.cancel) :=
  h.write ht ((h.lives id t ht).cancel (h.past_notesOf id) hd)
    (fun hr => .inr (t.cancel_running_iff.1 hr)) (h.order.snoc nofun)
    (Scheduler.Orderly.modify h.listed id fun _ _ hd => by cases hd)

/-- The clock advances while no task is being run. -/
theorem advance (h : Ledger es c) (hidle : c.Idle) {time : Rat} (htime : c.time ≤ time) :
    Ledger es ({ c with time, tick := c.tick + 1 } : Scheduler Rat β) where
  lives := h.lives
  known := h.known
  past n hn := ⟨le_trans (h.past n hn).1 htime, Nat.le_succ_of_le (h.past n hn).2⟩
  present id t ht hb := absurd hb (hidle id t ht)
  order := h.order
  listed := ⟨h.listed.nodup, h.listed.bound, h.listed.listed⟩

/-- Tasks that are done are forgotten. -/
theorem sweep (h : Ledger es c) :
    Ledger es ({ c with live := c.live.filter fun id => !c.isDone id } : Scheduler Rat β) where
  lives := h.lives
  known := h.known
  past := h.past
  present := h.present
  order := h.order.sweep fun id hid => by
    obtain ⟨t, ht⟩ := Scheduler.exists_task? (h.listed.bound id hid)
    rw [h.isEnded_eq ht, Scheduler.isDone_of_task? ht]
  listed := Scheduler.Orderly.sweep h.listed

end Ledger
end VisualNovel
