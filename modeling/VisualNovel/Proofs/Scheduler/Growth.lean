import VisualNovel.Proofs.Scheduler.Tasks
/-!
# Tasks that may be cancelled while they are run

What is done while a task is run may cancel the task, or break off half way. Even so the tasks that
are being run go on (`Scheduler.Grows`), and at the end of the run the task is done or waits where an
update finds it: `Scheduler.Listed` is kept by `Listed.settle`, and by `Orderly.settleNew` if the
task was run for the first time.
-/
namespace VisualNovel
variable {τ β : Type}

/-- A task that is done or has something left to do. -/
def Task.Awaits (t : Task τ β) : Prop := t.done = false → ∃ rest, t.left? = some rest

theorem Task.awaits_of_done {t : Task τ β} (h : t.done = true) : t.Awaits := fun hd =>
  absurd (h.symm.trans hd) Bool.noConfusion

theorem Task.awaits_of_suspended {t : Task τ β} {rest : β} (h : t.body = .suspended rest) :
    t.Awaits := fun hd => ⟨rest, Task.left?_eq_some.2 ⟨h, hd⟩⟩

namespace Scheduler
variable {s s' s'' : Scheduler τ β} {id : TaskId} {t : Task τ β}

/-- A task is being run. -/
def Runs (s : Scheduler τ β) (id : TaskId) : Prop := ∃ t, s.task? id = some t ∧ t.body = .running

/-- What may happen to a scheduler while tasks are being run, even if they are cancelled: they go on
being run, no task is forgotten, and only new ones come to live. -/
structure Grows (s s' : Scheduler τ β) : Prop extends Widens s s' where
  runs : ∀ id, s'.Runs id ↔ s.Runs id

/-- Every task is done, or being run, or waits where an update will find it. -/
abbrev Listed (s : Scheduler τ β) : Prop := s.Orderly fun _ _ => True

/-! ## Growth -/

theorem Grows.refl (s : Scheduler τ β) : s.Grows s := ⟨.refl s, fun _ => Iff.rfl⟩

theorem Grows.trans (h : s.Grows s') (h' : s'.Grows s'') : s.Grows s'' :=
  ⟨h.toWidens.trans h'.toWidens, fun id => (h'.runs id).trans (h.runs id)⟩

theorem runs_modify (s : Scheduler τ β) (id j : TaskId) (f : Task τ β → Task τ β) :
    (s.modify id f).Runs j ↔
      ∃ t, s.task? j = some t ∧ (if id = j then f t else t).body = .running := by
  unfold Runs
  by_cases hj : id = j
  · subst hj
    rw [task?_modify_self]
    constructor
    · rintro ⟨u, hu, hb⟩
      obtain ⟨t, ht, rfl⟩ := Option.map_eq_some_iff.1 hu
      exact ⟨t, ht, by rw [if_pos rfl]; exact hb⟩
    · rintro ⟨t, ht, hb⟩
      rw [if_pos rfl] at hb
      exact ⟨f t, by rw [ht]; rfl, hb⟩
  · rw [task?_modify_of_ne s f (Ne.symm hj)]
    simp only [if_neg hj]

/-- A task may be changed as long as it goes on if it is being run. -/
theorem Grows.modify (f : Task τ β → Task τ β)
    (hf : ∀ t, s.task? id = some t → ((f t).body = .running ↔ t.body = .running)) :
    s.Grows (s.modify id f) := by
  refine ⟨.modify s id f, fun j => (runs_modify s id j f).trans ⟨?_, ?_⟩⟩
  · rintro ⟨t, ht, hb⟩
    split at hb
    · next hj => exact ⟨t, ht, (hf t (hj ▸ ht)).1 hb⟩
    · exact ⟨t, ht, hb⟩
  · rintro ⟨t, ht, hb⟩
    refine ⟨t, ht, ?_⟩
    split
    · next hj => exact (hf t (hj ▸ ht)).2 hb
    · exact hb

theorem Grows.enlist (h : s.Grows s') (hid : s.tasks.length ≤ id) : s.Grows (s'.enlist id) :=
  ⟨h.toWidens.enlist hid, h.runs⟩

/-- A task that is run the first time is new. -/
theorem Grows.settleNew {name : Json} (h : (s.enrol name).Grows s') {f : Task τ β → Task τ β}
    (hf : ∀ t, (f t).body ≠ .running) : s.Grows (s'.modify s.tasks.length f) := by
  refine ⟨((Widens.enrol s name).trans h.toWidens).trans (.modify ..),
    fun j => (runs_modify s' _ j f).trans ⟨?_, ?_⟩⟩
  · rintro ⟨t, ht, hb⟩
    split at hb
    · exact absurd hb (hf t)
    · next hj =>
      obtain ⟨u, hu, hru⟩ := (h.runs j).1 ⟨t, ht, hb⟩
      rcases Nat.lt_or_gt_of_ne hj with hgt | hlt
      · rw [task?_enrol_of_gt hgt] at hu
        cases hu
      · exact ⟨u, (task?_enrol_of_lt hlt).symm.trans hu, hru⟩
  · rintro ⟨t, ht, hb⟩
    have hlt := task?_lt ht
    obtain ⟨u, hu, hru⟩ := (h.runs j).2 ⟨t, (task?_enrol_of_lt hlt).trans ht, hb⟩
    exact ⟨u, hu, by rw [if_neg (Nat.ne_of_gt hlt)]; exact hru⟩

/-- A task that is being run the first time does not wait. -/
theorem Widens.not_mem_live {name : Json} (h : (s.enrol name).Widens s') (hs : s.Listed) :
    s.tasks.length ∉ s'.live := fun hmem => by
  obtain ⟨new, hl, hn⟩ := h.live
  rw [hl] at hmem
  rcases List.mem_append.1 hmem with hmem | hmem
  · exact not_mem_live_enrol hs name hmem
  · have hle := hn _ hmem
    have hlen : (s.enrol name).tasks.length = s.tasks.length + 1 := by simp [Scheduler.enrol]
    omega

/-! ## The end of a run -/

/-- A task is done, or waits again where an update finds it. -/
theorem Listed.settle (h : s.Listed) {f : Task τ β → Task τ β} (hf : ∀ t, (f t).Awaits)
    (hid : id ∈ s.live ∨ ∀ t, s.task? id = some t → (f t).done = true) :
    (s.modify id f).Listed :=
  h.modify id fun t ht hd => by
    rcases hid with hlive | hdone
    · obtain ⟨rest, hl⟩ := hf t hd
      exact Or.inr ⟨⟨rest, hl, trivial⟩, hlive⟩
    · exact absurd ((hdone t ht).symm.trans hd) Bool.noConfusion

end Scheduler
end VisualNovel
