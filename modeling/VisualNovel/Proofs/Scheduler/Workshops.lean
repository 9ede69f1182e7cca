import VisualNovel.Proofs.Scheduler.Conduct
import VisualNovel.Proofs.Scheduler.Scripts
/-!
# What scripted tasks do

A script starts and cancels tasks, maybe one inside the other, and does nothing else to the
scheduler. So all scripts have a conduct (`conduct`), and what they do to tasks can be told
beforehand (`performNotes`). On the exact clock no task is started in vain, so none is left hanging
(`Behaves`).
-/
namespace VisualNovel.Workshop

/-! ## The notes of a script -/

/-- The notes of a list of instructions that is repeated. -/
def repeatNotes (notes : Workshop Rat → List (Note Rat))
    (act : Workshop Rat → Workshop Rat × Progress Rat) : Nat → Workshop Rat → List (Note Rat)
  | 0, _ => []
  | n + 1, w =>
    notes w ++
      match act w with
      | (w, .through) | (w, .left) => repeatNotes notes act n w
      | (_, .failed _) | (_, .suspended _ _) => []

/-- The notes of a task that is started. -/
def startNotes (name : Json) (notes : Workshop Rat → List (Note Rat))
    (act : Workshop Rat → Workshop Rat × Progress Rat) (w : Workshop Rat) : List (Note Rat) :=
  let c := w.scheduler
  let w := host.modify (·.enrol (if name.isTruthy then name else usualName)) w
  c.note c.tasks.length .start :: notes w ++
    [c.note c.tasks.length (conclude (act w)).2.happening]

/-- The notes of a task that is cancelled under a key. -/
def cancelNotes (key : Json) (w : Workshop Rat) : List (Note Rat) :=
  match w.keys.lookup key with
  | none => []
  | some id => if w.scheduler.isDone id then [] else [w.scheduler.note id .cancel]

mutual

/-- The notes of an instruction. -/
def performNotes : Instruction Rat → Workshop Rat → List (Note Rat)
  | .start _ name body, w => startNotes name (fun w => performAllNotes body w) (performAll body) w
  | .cancel key, w | .tryCancel key, w => cancelNotes key w
  | .repeatTimes n body, w => repeatNotes (fun w => performAllNotes body w) (performAll body) n w
  | .block body, w => performAllNotes body w
  | .mark _, _ | .wait _, _ | .tick, _ | .fail, _ | .leave, _ => []

/-- The notes of instructions in order. -/
def performAllNotes : Instructions Rat → Workshop Rat → List (Note Rat)
  | [], _ => []
  | i :: rest, w =>
    performNotes i w ++
      match perform i w with
      | (w, .through) => performAllNotes rest w
      | (_, .left) | (_, .failed _) | (_, .suspended _ _) => []

end

/-- What is done to tasks is what the notes say, and no task is left hanging. -/
structure Behaves (notes : Workshop Rat → List (Note Rat))
    (act : Workshop Rat → Workshop Rat × Progress Rat) : Prop where
  acts : ∀ w, host.Acts (notes w) w (act w).1
  ready : ∀ w id, (act w).2 ≠ .failed (some id)

section
variable {notes : Workshop Rat → List (Note Rat)}
  {act : Workshop Rat → Workshop Rat × Progress Rat}

theorem repeat_behaves (h : Behaves notes act) (body : Instructions Rat) (n : Nat) :
    Behaves (repeatNotes notes act n) (repeatBody body act n) := by
  induction n with
  | zero => exact ⟨fun w => .refl w, fun w id => by simp [repeatBody]⟩
  | succ n ih =>
    have hstep (w : Workshop Rat) : host.Acts (repeatNotes notes act (n + 1) w) w
        (repeatBody body act (n + 1) w).1 ∧
        ∀ id, (repeatBody body act (n + 1) w).2 ≠ .failed (some id) := by
      have hacts := h.acts w
      have hready := h.ready w
      obtain ⟨⟨w', p⟩, hw'⟩ : ∃ r, act w = r := ⟨_, rfl⟩
      rw [hw'] at hacts hready
      simp only [repeatNotes, repeatBody, hw']
      cases p with
      | through => exact ⟨hacts.trans (ih.acts w'), ih.ready w'⟩
      | left => exact ⟨hacts.trans (ih.acts w'), ih.ready w'⟩
      | failed hanging => exact ⟨by rwa [List.append_nil], fun id hid => hready id hid⟩
      | suspended r rest => exact ⟨by rwa [List.append_nil], fun id => by simp⟩
    exact ⟨fun w => (hstep w).1, fun w => (hstep w).2⟩

/-- To conclude a run leaves the scheduler alone. -/
theorem conclude_acts (h : Behaves notes act) (w : Workshop Rat) :
    host.Acts (notes w) w (conclude (act w)).1 := by
  have hacts := h.acts w
  have hready := h.ready w
  have hsame : (conclude (act w)).1.scheduler = (act w).1.scheduler := by
    obtain ⟨⟨w', p⟩, hw'⟩ : ∃ r, act w = r := ⟨_, rfl⟩
    rw [hw'] at hready ⊢
    cases p with
    | failed hanging =>
      cases hanging with
      | none => rfl
      | some id => exact absurd rfl (hready id)
    | through | left | suspended r rest => rfl
  exact hacts.aside hsame

theorem startKey_acts (h : Behaves notes act) (key name : Json) (w : Workshop Rat) :
    ∃ w', (startKey key name (fun w => conclude (act w)) w).1 = (w', none) ∧
      host.Acts (startNotes name notes act w) w w' := by
  have hinner := conclude_acts h
    (host.modify (·.enrol (if name.isTruthy then name else usualName)) w)
  have hnone := Host.Acts.start_none host_lawful.stores _ (fun w => conclude (act w)) hinner
  have hacts := Host.Acts.startOne _ (fun w => conclude (act w)) hinner
  unfold startKey
  obtain ⟨⟨⟨w', e⟩, id⟩, hw'⟩ : ∃ r, host.start (if name.isTruthy then name else usualName)
    (fun w => conclude (act w)) w = r := ⟨_, rfl⟩
  rw [hw'] at hnone hacts ⊢
  obtain rfl : e = none := hnone
  exact ⟨_, rfl, hacts.aside rfl⟩

end

theorem cancelKey_acts (key : Json) (w : Workshop Rat) :
    host.Acts (cancelNotes key w) w (cancelKey key w).1 := by
  unfold cancelNotes cancelKey
  cases w.keys.lookup key with
  | none => exact .rest rfl
  | some id => exact .cancelled host_lawful id w

/-! ## All scripts -/

mutual

theorem perform_behaves : (i : Instruction Rat) → Behaves (performNotes i) (perform i)
  | .mark v => ⟨fun w => by simpa only [performNotes, perform] using .rest rfl,
      fun w id => by simp [perform]⟩
  | .wait seconds => ⟨fun w => by simpa only [performNotes, perform] using .refl w,
      fun w id => by simp [perform]⟩
  | .tick => ⟨fun w => by simpa only [performNotes, perform] using .refl w,
      fun w id => by simp [perform]⟩
  | .fail => ⟨fun w => by simpa only [performNotes, perform] using .refl w,
      fun w id => by simp [perform]⟩
  | .leave => ⟨fun w => by simpa only [performNotes, perform] using .refl w,
      fun w id => by simp [perform]⟩
  | .repeatTimes n body => by
    have hrepeat := repeat_behaves (performAll_behaves body) body n
    exact ⟨fun w => by simpa only [performNotes, perform] using hrepeat.acts w,
      fun w id => by simpa only [perform] using hrepeat.ready w id⟩
  | .block body => by
    have hbody := performAll_behaves body
    have hstep (w : Workshop Rat) : (perform (.block body) w).1 = (performAll body w).1 ∧
        ∀ id, (perform (.block body) w).2 ≠ .failed (some id) := by
      have hready := hbody.ready w
      unfold perform
      obtain ⟨⟨w', p⟩, hw'⟩ : ∃ r, performAll body w = r := ⟨_, rfl⟩
      rw [hw'] at hready ⊢
      cases p with
      | through | left | suspended r rest => exact ⟨rfl, fun _ => nofun⟩
      | failed hanging => exact ⟨rfl, fun id hid => hready id hid⟩
    refine ⟨fun w => ?_, fun w => (hstep w).2⟩
    rw [(hstep w).1]
    simpa only [performNotes] using hbody.acts w
  | .start key name body => by
    have hstep (w : Workshop Rat) :
        host.Acts (performNotes (.start key name body) w) w (perform (.start key name body) w).1 ∧
          ∀ id, (perform (.start key name body) w).2 ≠ .failed (some id) := by
      obtain ⟨w', hstart, hacts⟩ := startKey_acts (performAll_behaves body) key name w
      unfold performNotes perform
      obtain ⟨⟨⟨w'', e⟩, id⟩, hw''⟩ : ∃ r,
        startKey key name (fun w => conclude (performAll body w)) w = r := ⟨_, rfl⟩
      rw [hw''] at hstart ⊢
      cases hstart
      exact ⟨hacts, fun _ => nofun⟩
    exact ⟨fun w => (hstep w).1, fun w => (hstep w).2⟩
  | .cancel key => by
    have hstep (w : Workshop Rat) :
        host.Acts (performNotes (.cancel key) w) w (perform (.cancel key) w).1 ∧
          ∀ id, (perform (.cancel key) w).2 ≠ .failed (some id) := by
      have hacts := cancelKey_acts key w
      unfold performNotes perform
      obtain ⟨⟨w', free⟩, hw'⟩ : ∃ r, cancelKey key w = r := ⟨_, rfl⟩
      rw [hw'] at hacts ⊢
      cases free <;> exact ⟨hacts, fun _ => nofun⟩
    exact ⟨fun w => (hstep w).1, fun w => (hstep w).2⟩
  | .tryCancel key => by
    have hstep (w : Workshop Rat) :
        host.Acts (performNotes (.tryCancel key) w) w (perform (.tryCancel key) w).1 ∧
          ∀ id, (perform (.tryCancel key) w).2 ≠ .failed (some id) := by
      have hacts := cancelKey_acts key w
      unfold performNotes perform
      obtain ⟨⟨w', free⟩, hw'⟩ : ∃ r, cancelKey key w = r := ⟨_, rfl⟩
      rw [hw'] at hacts ⊢
      cases free with
      | true => exact ⟨hacts, fun _ => nofun⟩
      | false => exact ⟨hacts.aside rfl, fun _ => nofun⟩
    exact ⟨fun w => (hstep w).1, fun w => (hstep w).2⟩

theorem performAll_behaves : (is : Instructions Rat) → Behaves (performAllNotes is) (performAll is)
  | [] => ⟨fun w => by simpa only [performAllNotes, performAll] using .refl w,
      fun w id => by simp [performAll]⟩
  | i :: rest => by
    have hi := perform_behaves i
    have hrest := performAll_behaves rest
    have hstep (w : Workshop Rat) :
        host.Acts (performAllNotes (i :: rest) w) w (performAll (i :: rest) w).1 ∧
          ∀ id, (performAll (i :: rest) w).2 ≠ .failed (some id) := by
      have hacts := hi.acts w
      have hready := hi.ready w
      unfold performAllNotes performAll
      obtain ⟨⟨w', p⟩, hw'⟩ : ∃ r, perform i w = r := ⟨_, rfl⟩
      rw [hw'] at hacts hready ⊢
      cases p with
      | through => exact ⟨hacts.trans (hrest.acts w'), hrest.ready w'⟩
      | left => exact ⟨by rwa [List.append_nil], fun _ => nofun⟩
      | failed hanging => exact ⟨by rwa [List.append_nil], fun id hid => hready id hid⟩
      | suspended r left => exact ⟨by rwa [List.append_nil], fun _ => nofun⟩
    exact ⟨fun w => (hstep w).1, fun w => (hstep w).2⟩

end

/-- What scripted tasks do when they are run. -/
def conduct : host.Conduct run where
  notes body w := performAllNotes body w
  acts body w := conclude_acts (performAll_behaves body) w

/-- A script is started under a key without breaking off, with its notes. -/
theorem start_acts (key name : Json) (body : Instructions Rat) (w : Workshop Rat) :
    host.Acts (startNotes name (performAllNotes body) (performAll body) w) w
      (start key name body w).1.1 := by
  obtain ⟨w', hstart, hacts⟩ := startKey_acts (performAll_behaves body) key name w
  unfold start
  obtain ⟨⟨⟨w'', e⟩, id⟩, hw''⟩ : ∃ r, startKey key name (run body) w = r := ⟨_, rfl⟩
  rw [show startKey key name (fun w => conclude (performAll body w)) w = _ from hw''] at hstart
  rw [hw'']
  cases hstart
  exact hacts

end VisualNovel.Workshop
