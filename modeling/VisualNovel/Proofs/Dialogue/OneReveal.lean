import VisualNovel.Dialogue.Recital
import VisualNovel.Proofs.Dialogue.Reciters
/-!
# At most one reveal

* `Reciter.Goes.reveals_one_at_a_time`: as long as no reveal goes astray, at most one task is
  active, the dialogue is revealing if and only if one is, and when a reveal has been begun or
  cancelled, those from before are not run again.
* `Reciter.astray_unnoticed`: when a reveal goes astray that was begun by the completion of a line
  that was complete at once, then it goes on, although the dialogue is not revealing.
-/
namespace VisualNovel
namespace Dialogue
namespace Reciter
variable {α ω : Type} {m : Manner Rat ω} (k : Reciter m α)

/-- Whatever comes, only such tasks are run as have this number or a higher one. -/
def Silent (bound : TaskId) (es : List (Note Rat)) (d : Dialogue Rat α ω) : Prop :=
  ∀ es' d', k.Goes es d es' d' →
    ∃ new, es' = es ++ new ∧ ∀ n ∈ new, n.what.runs = true → bound ≤ n.task

/-- How reveals fare in a dialogue that has come to these notes. -/
structure OneReveal (es : List (Note Rat)) (d : Dialogue Rat α ω) : Prop where
  /-- At most one reveal is active. -/
  one : d.scheduler.active.length ≤ 1
  /-- The dialogue is revealing if and only if one is. -/
  revealing : d.isRevealing = true ↔ d.scheduler.active ≠ []
  /-- When the reveal has been cancelled, none from before is run again. -/
  cancelled : k.Silent d.scheduler.tasks.length (es ++ d.cancelNotes) (d.cancelReveal m.stage)
  /-- When another reveal has been begun, none from before is run again. -/
  replaced : ∀ text after, k.Silent d.scheduler.tasks.length
    (es ++ startNotes m text after (k.complete after) (k.notes after) d)
    (d.startReveal m text after (k.complete after)).1
  /-- The same holds if a reveal is begun when a line is complete. -/
  superseded : Supersedes es

section
variable {k} {es : List (Note Rat)} {d d₀ : Dialogue Rat α ω}

/-- A task that is done is not run again. -/
theorem silent_of_done (hs : k.conduct.Chronicle Activity.rounds es d) {bound : TaskId}
    (hbound : bound ≤ d.scheduler.tasks.length)
    (hdone : ∀ id, id < bound → d.scheduler.isDone id = true) : k.Silent bound es d := by
  intro es' d' hgoes
  obtain ⟨new, rfl⟩ := hgoes.extends_notes hs
  refine ⟨new, rfl, fun n hn hruns => ?_⟩
  by_contra hlt
  have hledger := (hs.ledger (host_lawful m.stage).stores rounds_pos).1
  have hledger' := ((hgoes.chronicle hs).ledger (host_lawful m.stage).stores rounds_pos).1
  obtain ⟨t, ht⟩ := Scheduler.exists_task? (Nat.lt_of_lt_of_le (Nat.not_le.1 hlt) hbound)
  have hended : isEnded es n.task = true := by
    rw [hledger.isEnded_eq ht, ← Scheduler.isDone_of_task? ht]
    exact hdone n.task (Nat.not_le.1 hlt)
  obtain ⟨a, ha, hends⟩ := isEnded_eq_true_iff.1 hended
  have hpairwise := hledger'.pairwise n.task
  rw [notesOf_append] at hpairwise
  have hlets := (List.pairwise_append.1 hpairwise).2.2 a ha n (mem_notesOf.2 ⟨hn, rfl⟩)
  rw [hlets.ended hends] at hruns
  cases hruns

/-- When the reveal has been cancelled, every task is done. -/
theorem Kept.all_done (h : Kept es d) (hs : k.conduct.Chronicle Activity.rounds es d)
    (id : TaskId) : (d.cancelReveal m.stage).scheduler.isDone id = true := by
  have hcancel := hs.acts (cancelReveal_acts m.stage d)
  obtain ⟨hledger, hidle⟩ := hcancel.ledger (host_lawful m.stage).stores rounds_pos
  exact isDone_of_not_waits hledger hidle (h.tracks.cancel m.stage id)

/-- When another reveal has been begun, every task from before is done. -/
theorem Kept.done_behind_start (h : Kept es d) (hs : k.conduct.Chronicle Activity.rounds es d)
    (text : String) (after : α) {id : TaskId} (hid : id < d.scheduler.tasks.length) :
    (d.startReveal m text after (k.complete after)).1.scheduler.isDone id = true := by
  obtain ⟨d₁, hd₁⟩ : ∃ d₁, d.cancelReveal m.stage = d₁ := ⟨_, rfl⟩
  have hstart : d.startReveal m text after (k.complete after) =
      d₁.startReveal m text after (k.complete after) := by
    have hfree := cancelReveal_reveal m.stage d
    have hagain : (d.cancelReveal m.stage).cancelReveal m.stage = d.cancelReveal m.stage := by
      unfold cancelReveal at hfree ⊢
      rw [hfree]
    unfold startReveal
    rw [← hd₁, hagain]
  have hdone : d₁.scheduler.isDone id = true := hd₁ ▸ h.all_done hs id
  have hsize : d.scheduler.tasks.length ≤ d₁.scheduler.tasks.length :=
    hd₁ ▸ ((cancelReveal_acts m.stage d).sequel (host_lawful m.stage).stores).size
  have hsequel := (startReveal_recites text (k.recites after) d₁).acts.sequel
    (host_lawful m.stage).stores
  rw [hstart]
  exact hsequel.isDone (Nat.lt_of_lt_of_le hid hsize) hdone

/-- At most one task is active: those that stand are distinct, and each of them is the one that is
noted. -/
theorem Kept.length_active_le (h : Kept es d) (hledger : Ledger es d.scheduler)
    (hidle : d.scheduler.Idle) : d.scheduler.active.length ≤ 1 := by
  have hnoted (id : TaskId) (hid : id ∈ standing es) : d.reveal = some id :=
    (h.tracks id ((mem_standing_iff_waits hledger hidle).1 hid)).1
  have hnodup := hledger.nodup_standing
  rw [hledger.length_active]
  match hids : standing es with
  | [] => exact Nat.zero_le 1
  | [_] => exact Nat.le_refl 1
  | i :: j :: ids =>
    rw [hids] at hnoted hnodup
    have hij := (hnoted i (by simp)).symm.trans (hnoted j (by simp))
    simp [Option.some.inj hij] at hnodup

/-- The dialogue is revealing if and only if a task is active. -/
theorem Kept.isRevealing_iff (h : Kept es d) (hledger : Ledger es d.scheduler)
    (hidle : d.scheduler.Idle) : d.isRevealing = true ↔ d.scheduler.active ≠ [] := by
  have hactive : d.scheduler.active ≠ [] ↔ standing es ≠ [] := by
    rw [← List.length_pos_iff, ← List.length_pos_iff, hledger.length_active]
  rw [hactive]
  constructor
  · intro hrevealing
    obtain ⟨id, -, hd⟩ := (Option.any_eq_true ..).1 hrevealing
    have hwaits : d.scheduler.Waits id := by
      by_contra hnot
      rw [isDone_of_not_waits hledger hidle hnot] at hd
      cases hd
    exact List.ne_nil_of_mem ((mem_standing_iff_waits hledger hidle).2 hwaits)
  · intro hne
    obtain ⟨id, hid⟩ := List.exists_mem_of_ne_nil _ hne
    have hwaits := (mem_standing_iff_waits hledger hidle).1 hid
    obtain ⟨t, rest, ht, hleft⟩ := Scheduler.waits_iff.1 hwaits
    refine (Option.any_eq_true ..).2 ⟨id, (h.tracks id hwaits).1, ?_⟩
    rw [Scheduler.isDone_of_task? ht, (Task.left?_eq_some.1 hleft).2]
    rfl

/-- As long as no reveal goes astray, there is at most one: at most one task is active, the dialogue
is revealing if and only if one is, and when a reveal has been begun or cancelled, none from before
is run again. -/
theorem Goes.reveals_one_at_a_time (hempty : d₀.scheduler = .empty) (h : k.Goes [] d₀ es d)
    (hstrays : strays [] es = []) : k.OneReveal es d := by
  have hfresh : k.conduct.Chronicle Activity.rounds [] d₀ := .fresh hempty
  have hkept₀ : Kept [] d₀ := by
    refine ⟨.of_none fun id hid => ?_, .nil⟩
    obtain ⟨t, rest, ht, -⟩ := Scheduler.waits_iff.1 hid
    rw [hempty] at ht
    cases ht
  have hs := h.chronicle hfresh
  have hkept := h.kept hfresh hkept₀ hstrays
  obtain ⟨hledger, hidle⟩ : Ledger es d.scheduler ∧ d.scheduler.Idle :=
    hs.ledger (host_lawful m.stage).stores rounds_pos
  refine ⟨hkept.length_active_le hledger hidle, hkept.isRevealing_iff hledger hidle, ?_,
    fun text after => ?_, hkept.supersedes⟩
  · have hsequel := (cancelReveal_acts m.stage d).sequel (host_lawful m.stage).stores
    exact silent_of_done (h.cancel.chronicle hfresh) hsequel.size fun id _ => hkept.all_done hs id
  · have hsequel := (startReveal_recites text (k.recites after) d).acts.sequel
      (host_lawful m.stage).stores
    exact silent_of_done ((h.start text after).chronicle hfresh) hsequel.size
      fun id hid => hkept.done_behind_start hs text after hid

/-- When a line is begun and complete at once, the task that is noted is over. -/
theorem reveal_of_startNotes {text : String} {after : α} {before : List (Note Rat)} {z : Note Rat}
    (hnotes : startNotes m text after (k.complete after) (k.notes after) d = before ++ [z])
    (hends : z.what = .finish ∨ z.what = .fail) :
    (d.startReveal m text after (k.complete after)).1.reveal = some z.task := by
  rw [startReveal_eq (k.recites after)]
  unfold startNotes at hnotes
  obtain ⟨⟨d₁, e⟩, hd₁⟩ : ∃ r, d.openLine m text = r := ⟨_, rfl⟩
  rw [hd₁] at hnotes ⊢
  cases e with
  | none =>
    simp only [← List.append_assoc] at hnotes
    rw [← List.singleton_inj.1 (List.append_inj' hnotes rfl).2]
    rfl
  | some e =>
    -- Where nothing was begun, nothing has come to its end.
    have hz : z ∈ d.cancelNotes := by
      rw [← List.append_nil d.cancelNotes, hnotes]
      simp
    rw [what_of_mem_cancelNotes hz] at hends
    rcases hends with hends | hends <;> cases hends

/-- When a line is begun and complete at once, then a reveal that its completion leaves behind goes
on, but the dialogue is not revealing. -/
theorem astray_unnoticed (hs : k.conduct.Chronicle Activity.rounds es d) {text : String} {after : α}
    {before : List (Note Rat)} {z : Note Rat} {id : TaskId}
    (hnotes : startNotes m text after (k.complete after) (k.notes after) d = before ++ [z])
    (hid : id ∈ leftBehind (es ++ before) z) :
    (d.startReveal m text after (k.complete after)).1.isRevealing = false ∧
      (d.startReveal m text after (k.complete after)).1.scheduler.Waits id := by
  obtain ⟨⟨hwhat, -⟩, ⟨n, hn, hstart⟩, hlt, hended⟩ := mem_leftBehind.1 hid
  have hreveal := reveal_of_startNotes hnotes hwhat
  have hacts := (startReveal_recites text (k.recites after) d).acts
  generalize d.startReveal m text after (k.complete after) = r at hacts hreveal ⊢
  rw [hnotes] at hacts
  obtain ⟨hledger, hidle⟩ : Ledger (es ++ (before ++ [z])) r.1.scheduler ∧ r.1.scheduler.Idle :=
    (hs.acts hacts).ledger (host_lawful m.stage).stores rounds_pos
  rw [← List.append_assoc] at hledger
  constructor
  · have hends : z.what.ends = true := by rcases hwhat with hwhat | hwhat <;> rw [hwhat] <;> rfl
    unfold isRevealing
    rw [hreveal, Option.any_some, hledger.isDone_of_ends (by simp) hends]
    rfl
  · have hended' : isEnded (es ++ before ++ [z]) id = false := by
      rw [isEnded_snoc, hended, decide_eq_false (Nat.ne_of_lt hlt)]
      rfl
    have hn' : n ∈ notesOf id (es ++ before ++ [z]) := by
      rw [notesOf_append]
      exact List.mem_append_left _ hn
    exact (mem_standing_iff_waits hledger hidle).1
      ((hledger.mem_standing_iff hidle).2 ⟨⟨n, hn', hstart⟩, hended'⟩)

end

end Reciter
end Dialogue

namespace Recital
open Dialogue (startNotes Recites Reciter)
variable (m : Manner Rat RecitalRecord)

/-- The notes of what is done when a line is complete that has lines in its wake. -/
def goOnNotes : List String → Recital Rat → List (Note Rat)
  | [], _ => []
  | line :: wake, d =>
    startNotes m line (some wake) (goOn m wake) (goOnNotes wake)
      (d.markComplete.withSession (Session.beginLine line))

/-- What is done when a line is complete begins a reveal, if there are lines in its wake. -/
theorem goOn_recites (wake : List String) (d : Recital Rat) :
    Recites m (complete m) (goOnNotes m wake d) d (goOn m wake d).1 := by
  induction wake generalizing d with
  | nil =>
    have hmark : d.Aside d.markComplete := ⟨rfl, rfl⟩
    exact .aside hmark (.refl d.markComplete)
  | cons line wake ih =>
    obtain ⟨d₁, hd₁⟩ : ∃ d₁, d.markComplete.withSession (Session.beginLine line) = d₁ := ⟨_, rfl⟩
    have hmark : d.Aside d₁ := hd₁ ▸ ⟨rfl, rfl⟩
    have hstart : Recites m (complete m) (startNotes m line (some wake) (goOn m wake)
        (goOnNotes m wake) d₁) d₁ (d₁.startReveal m line (some wake) (goOn m wake)).1 :=
      Dialogue.startReveal_recites line ih d₁
    unfold goOnNotes goOn
    rw [hd₁]
    exact .aside hmark hstart

/-- A recital, with its notes. -/
def reciter : Reciter m (Option (List String)) where
  complete := complete m
  notes after d := after.elim [] (goOnNotes m · d)
  recites after d := by
    cases after with
    | none => exact .refl d
    | some wake => exact goOn_recites m wake d

/-- The tasks of a recital are run as they are by a reciter. -/
theorem reciter_run : (reciter m).run = run m := by
  funext body d
  cases body <;> rfl

/-- A line is begun, with the notes of that. -/
def begun (line : String) (after : Option (List String)) (w : Recital Rat × List (Note Rat)) :
    Recital Rat × List (Note Rat) :=
  ((begin m line after w.1).1, w.2 ++ startNotes m line after (complete m after)
    ((reciter m).notes after) (w.1.withSession (Session.beginLine line)))

/-- What an update makes of a recital, with the notes of it. -/
def later (dt : Rat) (w : Recital Rat × List (Note Rat)) : Recital Rat × List (Note Rat) :=
  (((Dialogue.host m.stage).beside _).update (reciter m).conduct.recording Activity.rounds dt w).1

section
variable {m} {w : Recital Rat × List (Note Rat)} {es₀ : List (Note Rat)} {d₀ : Recital Rat}

theorem goes_begun (h : (reciter m).Goes es₀ d₀ w.2 w.1) (line : String)
    (after : Option (List String)) :
    (reciter m).Goes es₀ d₀ (begun m line after w).2 (begun m line after w).1 := by
  have hline : w.1.Aside (w.1.withSession (Session.beginLine line)) := ⟨rfl, rfl⟩
  exact h.recites (.aside hline (Dialogue.startReveal_recites line ((reciter m).recites after) _))

theorem goes_later (h : (reciter m).Goes es₀ d₀ w.2 w.1) {dt : Rat} (hdt : 0 ≤ dt) :
    (reciter m).Goes es₀ d₀ (later m dt w).2 (later m dt w).1 := h.update hdt

/-- What is noted makes no difference to an update of a recital, and it does not break off. -/
theorem update_eq_later (hs : (reciter m).conduct.Chronicle Activity.rounds es₀ d₀)
    (h : (reciter m).Goes es₀ d₀ w.2 w.1) {dt : Rat} (hdt : 0 ≤ dt) :
    update m dt w.1 = ((later m dt w).1, none) := by
  obtain ⟨new, hupdate, hnone, -⟩ := h.passes hs hdt
  have hlater : (later m dt w).1 =
      ((Dialogue.host m.stage).update (reciter m).run Activity.rounds dt w.1).1 := by
    unfold later
    rw [hupdate]
  unfold update Attempt.mapError
  rw [hlater, ← reciter_run, hnone]
  rfl

end

/-- The manner of a recital with three hundredths of a second for each character. -/
def plain : Manner Rat RecitalRecord := manner (3 / 100) (.str "Text_Scroll")

/-- A recital that has not begun, without notes. -/
def silence : Recital Rat × List (Note Rat) := (Dialogue.start {}, [])

/-- A line is begun that has another in its wake, and a tenth of a second passes. -/
def couplet : Recital Rat × List (Note Rat) :=
  later plain (1 / 10) (begun plain "ab" (some ["cd"]) silence)

/-- The second line is begun when the first is complete, and its reveal is the one that is noted. -/
theorem couplet_is_tracked :
    (reciter plain).OneReveal couplet.2 couplet.1 ∧ couplet.1.reveal = some 1 ∧
      couplet.1.isRevealing = true := by
  have hsilence : (reciter plain).Goes [] silence.1 silence.2 silence.1 := .stay
  have hbegun := goes_begun hsilence "ab" (some ["cd"])
  have hgoes : (reciter plain).Goes [] silence.1 couplet.2 couplet.1 :=
    goes_later hbegun (by decide +kernel)
  exact ⟨hgoes.reveals_one_at_a_time rfl (by decide +kernel), by decide +kernel, by decide +kernel⟩

/-- A line without characters is complete at once; the line in its wake goes astray. -/
example : (begun plain "" (some ["abc"]) silence).1.isRevealing = false ∧
    strays [] (begun plain "" (some ["abc"]) silence).2 = [1] ∧
    (begun plain "" (some ["abc"]) silence).1.scheduler.active.length = 1 := by
  decide +kernel

end Recital
end VisualNovel
