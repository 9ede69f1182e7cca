import VisualNovel.Proofs.Scheduler.Reach
import VisualNovel.TaskScript
/-!
# Scripted tasks that keep to themselves

A script keeps to itself if it starts and cancels no tasks and every delay in it is positive
(`Workshop.keepToThemselves`). It comes as far in one workshop as in another (`performAll_aloof`), so
its runs are those of a task that keeps to itself (`Workshop.paced`), and the rounds of an update are
enough for it (`Workshop.suffices_weight`).
-/
namespace VisualNovel.Workshop

mutual

/-- Whether an instruction starts and cancels no tasks and suspends for positive delays only. -/
def keepsToItself : Instruction Rat → Bool
  | .mark _ | .fail | .leave => true
  | .wait seconds => 0 < seconds
  | .repeatTimes _ body | .block body => keepToThemselves body
  | .tick | .start _ _ _ | .cancel _ | .tryCancel _ => false

/-- Whether all instructions do so. -/
def keepToThemselves : Instructions Rat → Bool
  | [] => true
  | i :: rest => keepsToItself i && keepToThemselves rest

end

theorem keepToThemselves_append (is js : Instructions Rat) :
    keepToThemselves (is ++ js) = (keepToThemselves is && keepToThemselves js) := by
  induction is with
  | nil => simp [keepToThemselves]
  | cons i is ih => simp [keepToThemselves, ih, Bool.and_assoc]

theorem weightAll_append (is js : Instructions Rat) :
    weightAll (is ++ js) = weightAll is + weightAll js := by
  induction is with
  | nil => simp [weightAll]
  | cons i is ih => simp [weightAll, ih, Nat.add_assoc]

/-! ## How far a script comes -/

/-- How far instructions may come that keep to themselves and suspend no more than so often. When
they suspend, what is left of them suspends less often. -/
inductive Comes (n : Nat) : Progress Rat → Prop
  | through : Comes n .through
  | left : Comes n .left
  | failed : Comes n (.failed none)
  | suspended {delay : Rat} {rest : Instructions Rat} (hdelay : 0 < delay)
      (hrest : keepToThemselves rest = true) (hweight : weightAll rest < n) :
      Comes n (.suspended (.wait delay) rest)

theorem Comes.mono {n m : Nat} {p : Progress Rat} (h : Comes n p) (hle : n ≤ m) : Comes m p := by
  cases h with
  | through => exact .through
  | left => exact .left
  | failed => exact .failed
  | suspended hdelay hrest hweight => exact .suspended hdelay hrest (Nat.lt_of_lt_of_le hweight hle)

/-- What is done comes equally far in every workshop and leaves the scheduler alone. -/
def ComesTo (act : Workshop Rat → Workshop Rat × Progress Rat) (p : Progress Rat) : Prop :=
  ∀ w, ∃ w', act w = (w', p) ∧ w'.scheduler = w.scheduler

/-- What is done comes as far as instructions may that keep to themselves. -/
def Aloof (n : Nat) (act : Workshop Rat → Workshop Rat × Progress Rat) : Prop :=
  ∃ p, Comes n p ∧ ComesTo act p

section
variable {act act' next : Workshop Rat → Workshop Rat × Progress Rat} {p q : Progress Rat}

theorem ComesTo.map (h : ComesTo act p) (hact : ∀ w w', act w = (w', p) → act' w = (w', q)) :
    ComesTo act' q := by
  intro w
  obtain ⟨w', hw, hs⟩ := h w
  exact ⟨w', hact w w' hw, hs⟩

theorem ComesTo.andThen (h : ComesTo act p) (hnext : ComesTo next q)
    (hact : ∀ w w', act w = (w', p) → act' w = next w') : ComesTo act' q := by
  intro w
  obtain ⟨w', hw, hs⟩ := h w
  obtain ⟨w'', hw', hs'⟩ := hnext w'
  exact ⟨w'', (hact w w' hw).trans hw', hs'.trans hs⟩

/-- Instructions that keep to themselves do so however often they are repeated. -/
theorem repeatBody_aloof {body : Instructions Rat} (hbody : keepToThemselves body = true)
    (hact : Aloof (weightAll body) act) (n : Nat) :
    Aloof (n * weightAll body) (repeatBody body act n) := by
  induction n with
  | zero => exact ⟨.through, .through, fun w => ⟨w, rfl, rfl⟩⟩
  | succ n ih =>
    obtain ⟨p, hp, hact⟩ := hact
    obtain ⟨q, hq, hrest⟩ := ih
    have hle : n * weightAll body ≤ (n + 1) * weightAll body :=
      Nat.mul_le_mul_right _ (Nat.le_succ n)
    cases hp with
    | through =>
      exact ⟨q, hq.mono hle, hact.andThen hrest fun w w' hw => by simp only [repeatBody, hw]⟩
    | left =>
      exact ⟨q, hq.mono hle, hact.andThen hrest fun w w' hw => by simp only [repeatBody, hw]⟩
    | failed =>
      exact ⟨.failed none, .failed, hact.map fun w w' hw => by simp only [repeatBody, hw]⟩
    | @suspended delay rest hdelay hkeep hweight =>
      refine ⟨.suspended (.wait delay) [.block rest, .repeatTimes n body],
        .suspended hdelay ?_ ?_, hact.map fun w w' hw => by simp only [repeatBody, hw]⟩
      · simp [keepToThemselves, keepsToItself, hkeep, hbody]
      · simp only [weightAll, weight, Nat.add_zero, Nat.succ_mul]
        omega

end

mutual

/-- An instruction that keeps to itself comes as far in every workshop. -/
theorem perform_aloof : (i : Instruction Rat) → keepsToItself i = true →
    Aloof (weight i) (perform i)
  | .mark v, _ => ⟨.through, .through, fun w => ⟨w.leave (.mark v), by simp only [perform], rfl⟩⟩
  | .fail, _ => ⟨.failed none, .failed, fun w => ⟨w, by simp only [perform], rfl⟩⟩
  | .leave, _ => ⟨.left, .left, fun w => ⟨w, by simp only [perform], rfl⟩⟩
  | .wait seconds, h => by
    have hdelay : 0 < seconds := by simpa [keepsToItself] using h
    exact ⟨.suspended (.wait seconds) [], .suspended hdelay rfl (by simp [weight, weightAll]),
      fun w => ⟨w, by simp only [perform], rfl⟩⟩
  | .repeatTimes n body, h => by
    have hbody : keepToThemselves body = true := by simpa only [keepsToItself] using h
    obtain ⟨p, hp, hact⟩ := repeatBody_aloof hbody (performAll_aloof body hbody) n
    exact ⟨p, by simpa only [weight] using hp, hact.map fun w w' hw => by simpa only [perform]⟩
  | .block body, h => by
    have hbody : keepToThemselves body = true := by simpa only [keepsToItself] using h
    obtain ⟨p, hp, hact⟩ := performAll_aloof body hbody
    simp only [weight]
    cases hp with
    | through => exact ⟨.through, .through, hact.map fun w w' hw => by simp only [perform, hw]⟩
    | left => exact ⟨.through, .through, hact.map fun w w' hw => by simp only [perform, hw]⟩
    | failed => exact ⟨.failed none, .failed, hact.map fun w w' hw => by simp only [perform, hw]⟩
    | @suspended delay rest hdelay hkeep hweight =>
      refine ⟨.suspended (.wait delay) [.block rest], .suspended hdelay ?_ ?_,
        hact.map fun w w' hw => by simp only [perform, hw]⟩
      · simp [keepToThemselves, keepsToItself, hkeep]
      · simpa only [weightAll, weight, Nat.add_zero] using hweight
  | .tick, h => by simp [keepsToItself] at h
  | .start _ _ _, h => by simp [keepsToItself] at h
  | .cancel _, h => by simp [keepsToItself] at h
  | .tryCancel _, h => by simp [keepsToItself] at h

/-- Instructions that keep to themselves come as far in every workshop. -/
theorem performAll_aloof : (is : Instructions Rat) → keepToThemselves is = true →
    Aloof (weightAll is) (performAll is)
  | [], _ => ⟨.through, .through, fun w => ⟨w, by simp only [performAll], rfl⟩⟩
  | i :: rest, h => by
    obtain ⟨hi, hrest⟩ : keepsToItself i = true ∧ keepToThemselves rest = true := by
      simpa [keepToThemselves] using h
    obtain ⟨p, hp, hact⟩ := perform_aloof i hi
    simp only [weightAll]
    cases hp with
    | through =>
      obtain ⟨q, hq, hact'⟩ := performAll_aloof rest hrest
      exact ⟨q, hq.mono (Nat.le_add_left _ _),
        hact.andThen hact' fun w w' hw => by simp only [performAll, hw]⟩
    | left => exact ⟨.left, .left, hact.map fun w w' hw => by simp only [performAll, hw]⟩
    | failed =>
      exact ⟨.failed none, .failed, hact.map fun w w' hw => by simp only [performAll, hw]⟩
    | @suspended delay left hdelay hkeep hweight =>
      refine ⟨.suspended (.wait delay) (left ++ rest), .suspended hdelay ?_ ?_,
        hact.map fun w w' hw => by simp only [performAll, hw]⟩
      · rw [keepToThemselves_append, hkeep, hrest]
        rfl
      · rw [weightAll_append]
        omega

end

/-! ## The workshop as a host -/

theorem host_lawful {τ : Type} : (host : Host (Workshop τ) τ (Instructions τ)).Lawful where
  scheduler_withScheduler _ _ := rfl
  scheduler_report _ _ := rfl
  scheduler_close _ _ := rfl

/-- How a run of a script ends, whatever the workshop. -/
def turn (body : Instructions Rat) : Outcome Rat (Instructions Rat) := (run body .empty).2

/-- How a run of a script ends that keeps to itself, and that it leaves the scheduler alone. -/
theorem run_aloof {body : Instructions Rat} (hbody : keepToThemselves body = true) :
    (∀ w, (run body w).2 = turn body ∧ (run body w).1.scheduler = w.scheduler) ∧
      (turn body = .finish ∨ turn body = .fail ∨ ∃ delay rest, 0 < delay ∧
        turn body = .suspend (.wait delay) rest ∧ keepToThemselves rest = true ∧
        weightAll rest < weightAll body) := by
  obtain ⟨p, hp, hact⟩ := performAll_aloof body hbody
  -- All runs end the same way, so it is enough to say which.
  have hends (o : Outcome Rat (Instructions Rat))
      (ho : ∀ w, (conclude (w, p)).2 = o ∧ (conclude (w, p)).1.scheduler = w.scheduler) :
      (∀ w, (run body w).2 = turn body ∧ (run body w).1.scheduler = w.scheduler) ∧
        turn body = o := by
    have hrun (w : Workshop Rat) : (run body w).2 = o ∧ (run body w).1.scheduler = w.scheduler := by
      obtain ⟨w', hw, hs⟩ := hact w
      unfold run
      rw [hw]
      exact ⟨(ho w').1, (ho w').2.trans hs⟩
    exact ⟨fun w => ⟨(hrun w).1.trans (hrun .empty).1.symm, (hrun w).2⟩, (hrun .empty).1⟩
  cases hp with
  | through =>
    obtain ⟨hall, hturn⟩ := hends .finish fun w => ⟨rfl, rfl⟩
    exact ⟨hall, .inl hturn⟩
  | left =>
    obtain ⟨hall, hturn⟩ := hends .finish fun w => ⟨rfl, rfl⟩
    exact ⟨hall, .inl hturn⟩
  | failed =>
    obtain ⟨hall, hturn⟩ := hends .fail fun w => ⟨rfl, rfl⟩
    exact ⟨hall, .inr (.inl hturn)⟩
  | @suspended delay rest hdelay hkeep hweight =>
    obtain ⟨hall, hturn⟩ := hends (.suspend (.wait delay) rest) fun w => ⟨rfl, rfl⟩
    exact ⟨hall, .inr (.inr ⟨delay, rest, hdelay, hturn, hkeep, hweight⟩)⟩

/-- Scripts that keep to themselves are bodies that do. -/
theorem paced : host.Paced run turn fun body _ => keepToThemselves body = true where
  outcome body _ w hbody := ((run_aloof hbody).1 w).1
  scheduler body _ w hbody := ((run_aloof hbody).1 w).2
  waits body _ request rest hbody hturn := by
    rcases (run_aloof hbody).2 with h | h | ⟨delay, rest', hdelay, h, hkeep, -⟩
    · rw [hturn] at h
      cases h
    · rw [hturn] at h
      cases h
    · rw [hturn] at h
      cases h
      exact ⟨delay, hdelay, rfl, hkeep⟩

end VisualNovel.Workshop
