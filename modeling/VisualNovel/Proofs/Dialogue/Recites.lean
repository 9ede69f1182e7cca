import VisualNovel.Dialogue.Reveal
import VisualNovel.Proofs.Scheduler.Turns
/-!
# What is done with reveals

Reveals are begun and cancelled, maybe one inside the completion of another, and all else leaves the
tasks alone (`Recites`). What that does to the scheduler is what any body may do to it
(`Recites.acts`). To begin a reveal in the way of the program is such a thing, with notes that can
be told beforehand (`startReveal_recites`).
-/
namespace VisualNovel.Dialogue

section
variable {τ α ω : Type}

theorem host_lawful (st : Stage ω) :
    (host st : Host (Dialogue τ α ω) τ (Activity α)).Lawful :=
  ⟨fun _ _ => rfl, fun _ _ => rfl, fun _ _ => rfl⟩

/-- Whatever has happened, it leaves the tasks alone, and the note of the one that reveals. -/
structure Aside (d d' : Dialogue τ α ω) : Prop where
  scheduler : d'.scheduler = d.scheduler
  reveal : d'.reveal = d.reveal

theorem Aside.refl (d : Dialogue τ α ω) : d.Aside d := ⟨rfl, rfl⟩

theorem Aside.trans {d d' d'' : Dialogue τ α ω} (h : d.Aside d') (h' : d'.Aside d'') :
    d.Aside d'' :=
  ⟨h'.scheduler.trans h.scheduler, h'.reveal.trans h.reveal⟩

variable {m : Manner τ ω} {d : Dialogue τ α ω}

theorem revealNext_aside (m : Manner τ ω) (d : Dialogue τ α ω) : d.Aside (d.revealNext m).1 :=
  Attempt.andThen_keeps ⟨rfl, rfl⟩ fun _ h => h.trans ⟨rfl, rfl⟩

theorem revealRest_aside (m : Manner τ ω) (total : Nat) (d : Dialogue τ α ω) :
    d.Aside (d.revealRest m total).1 := by
  unfold revealRest
  split <;> exact ⟨rfl, rfl⟩

/-- The dialogue in which a line is complete, if it is in this run of the task that reveals it. -/
def completed? (m : Manner τ ω) (total : Nat) (d : Dialogue τ α ω) : Option (Dialogue τ α ω) :=
  if d.session.revealed < total ∧ d.session.skip = false then none
  else
    match d.revealRest m total with
    | (d, none) => some (d.endReveal m total)
    | (_, some _) => none

/-- In one run of a task that reveals a line, the line is complete and that has its consequences, or
nothing happens to the tasks. -/
theorem runReveal_cases (m : Manner τ ω) (text : String) (after : α)
    (complete : Dialogue τ α ω → Attempt (Dialogue τ α ω) Fault) (d : Dialogue τ α ω) :
    (∃ d₁, d.completed? m text.length = some d₁ ∧ d₁.scheduler = d.scheduler ∧ d₁.reveal = none ∧
        d.runReveal m text after complete = runTo .finish (complete d₁)) ∨
      (d.completed? m text.length = none ∧ d.Aside (d.runReveal m text after complete).1) := by
  unfold completed? runReveal
  simp only
  split
  · refine .inr ⟨rfl, ?_⟩
    rw [runTo_fst]
    exact revealNext_aside m d
  · have hrest := revealRest_aside m text.length d
    obtain ⟨⟨d', e⟩, hd'⟩ : ∃ r, d.revealRest m text.length = r := ⟨_, rfl⟩
    rw [hd'] at hrest ⊢
    cases e with
    | none => exact .inl ⟨_, rfl, hrest.scheduler, rfl, rfl⟩
    | some e => exact .inr ⟨rfl, hrest⟩

/-- A task that waits for its next run has left the tasks alone in this one. -/
theorem runReveal_suspends {text : String} {after : α}
    {complete : Dialogue τ α ω → Attempt (Dialogue τ α ω) Fault}
    (h : (d.runReveal m text after complete).2.happening.suspends = true) :
    d.Aside (d.runReveal m text after complete).1 := by
  rcases runReveal_cases m text after complete d with ⟨d₁, -, -, -, hrun⟩ | ⟨-, haside⟩
  · rw [hrun] at h
    obtain ⟨⟨d₂, e⟩, hd₂⟩ : ∃ r, complete d₁ = r := ⟨_, rfl⟩
    rw [hd₂] at h
    cases e <;> cases h
  · exact haside

/-- What comes before the task that reveals a line: another reveal is cancelled, and the line is
shown with none of its characters. -/
def openLine (m : Manner τ ω) (text : String) (d : Dialogue τ α ω) :
    Attempt (Dialogue τ α ω) Fault :=
  let d := (d.cancelReveal m.stage).withSession fun s => { s with revealing := true, revealed := 0 }
  (d.perform m.stage (.line text)).andThen fun d => d.perform m.stage (.visible 0)

theorem cancelReveal_reveal (st : Stage ω) (d : Dialogue τ α ω) :
    (d.cancelReveal st).reveal = none := by
  unfold cancelReveal
  cases hr : d.reveal with
  | none => exact hr
  | some id => rfl

theorem openLine_aside (m : Manner τ ω) (text : String) (d : Dialogue τ α ω) :
    (d.cancelReveal m.stage).Aside (d.openLine m text).1 :=
  Attempt.andThen_keeps ⟨rfl, rfl⟩ fun _ h => h.trans ⟨rfl, rfl⟩

end

/-! ## What is done -/

variable {α ω : Type} {m : Manner Rat ω}
  {complete : α → Dialogue Rat α ω → Attempt (Dialogue Rat α ω) Fault}
  {d d' d'' : Dialogue Rat α ω} {new new' : List (Note Rat)}

/-- The dialogue while a task reveals a line for the first time. -/
def enrolled (m : Manner Rat ω) (d : Dialogue Rat α ω) : Dialogue Rat α ω :=
  (host m.stage).modify (·.enrol (.str "reveal_line")) d

/-- Starts the task that reveals a line, and notes it when its first run has ended. -/
def beginReveal (m : Manner Rat ω) (text : String) (after : α)
    (complete : Dialogue Rat α ω → Attempt (Dialogue Rat α ω) Fault) (d : Dialogue Rat α ω) :
    Dialogue Rat α ω :=
  { ((host m.stage).start (.str "reveal_line") (runReveal m text after complete) d).1.1 with
    reveal := some d.scheduler.tasks.length }

/-- The notes of the task whose reveal is cancelled. -/
def cancelNotes (d : Dialogue Rat α ω) : List (Note Rat) :=
  match d.reveal with
  | none => []
  | some id => if d.scheduler.isDone id then [] else [d.scheduler.note id .cancel]

/-- One may come from a dialogue to another by beginning and cancelling reveals, with these notes.
What is done in the first run of a reveal comes in between. -/
inductive Recites (m : Manner Rat ω)
    (complete : α → Dialogue Rat α ω → Attempt (Dialogue Rat α ω) Fault) :
    List (Note Rat) → Dialogue Rat α ω → Dialogue Rat α ω → Prop
  | refl (d : Dialogue Rat α ω) : Recites m complete [] d d
  | aside {new : List (Note Rat)} {d d₁ d' : Dialogue Rat α ω} (hd : d.Aside d₁)
      (hlater : Recites m complete new d₁ d') : Recites m complete new d d'
  | cancel {later : List (Note Rat)} {d d' : Dialogue Rat α ω}
      (hlater : Recites m complete later (d.cancelReveal m.stage) d') :
      Recites m complete (d.cancelNotes ++ later) d d'
  | start {inner later : List (Note Rat)} {d d' : Dialogue Rat α ω} (text : String) (after : α)
      (hfree : d.reveal = none)
      (hrun : Recites m complete inner (d.enrolled m)
        ((d.enrolled m).runReveal m text after (complete after)).1)
      (hlater : Recites m complete later (d.beginReveal m text after (complete after)) d') :
      Recites m complete ((d.scheduler.note d.scheduler.tasks.length .start :: inner ++
        [d.scheduler.note d.scheduler.tasks.length
          ((d.enrolled m).runReveal m text after (complete after)).2.happening]) ++ later) d d'

theorem what_of_mem_cancelNotes {n : Note Rat} (hn : n ∈ d.cancelNotes) : n.what = .cancel := by
  unfold cancelNotes at hn
  split at hn
  · cases hn
  · split at hn
    · cases hn
    · rw [List.mem_singleton.1 hn]
      rfl

theorem cancelReveal_acts (st : Stage ω) (d : Dialogue Rat α ω) :
    (host st).Acts d.cancelNotes d (d.cancelReveal st) := by
  unfold cancelNotes cancelReveal
  cases d.reveal with
  | none => exact .refl d
  | some id => exact (Host.Acts.cancelled (host_lawful st) id d).aside rfl

namespace Recites

theorem trans (h : Recites m complete new d d') (h' : Recites m complete new' d' d'') :
    Recites m complete (new ++ new') d d'' := by
  induction h with
  | refl => exact h'
  | aside hd _ ih => exact .aside hd (ih h')
  | cancel _ ih =>
    rw [List.append_assoc]
    exact .cancel (ih h')
  | start text after hfree hrun _ _ ih =>
    rw [List.append_assoc]
    exact .start text after hfree hrun (ih h')

/-- To begin and cancel reveals is to start and cancel tasks. -/
theorem acts (h : Recites m complete new d d') : (host m.stage).Acts new d d' := by
  induction h with
  | refl d => exact .refl d
  | aside hd _ ih => exact .beside hd.scheduler ih
  | @cancel later d d' _ ih => exact (cancelReveal_acts m.stage d).trans ih
  | @start inner later d d' text after _ _ _ ihrun ihlater =>
    have hnoted : (host m.stage).scheduler (d.beginReveal m text after (complete after)) =
        (host m.stage).scheduler ((host m.stage).start (.str "reveal_line")
          (runReveal m text after (complete after)) d).1.1 := rfl
    exact .start (.str "reveal_line") (runReveal m text after (complete after)) ihrun
      (.beside hnoted ihlater)

end Recites

/-! ## What is done in the way of the program -/

/-- The notes of one run of a task that reveals a line, when `notes` are those of what its
completion does. -/
def runNotes (m : Manner Rat ω) (text : String) (notes : Dialogue Rat α ω → List (Note Rat))
    (d : Dialogue Rat α ω) : List (Note Rat) :=
  (d.completed? m text.length).elim [] notes

/-- The notes of a reveal that is begun. -/
def startNotes (m : Manner Rat ω) (text : String) (after : α)
    (complete : Dialogue Rat α ω → Attempt (Dialogue Rat α ω) Fault)
    (notes : Dialogue Rat α ω → List (Note Rat)) (d : Dialogue Rat α ω) : List (Note Rat) :=
  d.cancelNotes ++
    match d.openLine m text with
    | (d, none) =>
      d.scheduler.note d.scheduler.tasks.length .start :: runNotes m text notes (d.enrolled m) ++
        [d.scheduler.note d.scheduler.tasks.length
          ((d.enrolled m).runReveal m text after complete).2.happening]
    | (_, some _) => []

/-- In one run of a task that reveals a line, the note of that may be given up; from then on nothing
is done but what is done with reveals. -/
theorem runReveal_recites {text : String} {after : α}
    {notes : Dialogue Rat α ω → List (Note Rat)}
    (hnotes : ∀ d, Recites m complete (notes d) d (complete after d).1) (d : Dialogue Rat α ω) :
    ∃ d₁, d₁.scheduler = d.scheduler ∧ (d₁.reveal = none ∨ d₁.reveal = d.reveal) ∧
      Recites m complete (runNotes m text notes d) d₁
        (d.runReveal m text after (complete after)).1 := by
  unfold runNotes
  rcases runReveal_cases m text after (complete after) d with
    ⟨d₁, hd₁, hscheduler, hreveal, hrun⟩ | ⟨hnone, haside⟩
  · refine ⟨d₁, hscheduler, .inl hreveal, ?_⟩
    rw [hd₁, hrun, runTo_fst]
    exact hnotes d₁
  · refine ⟨_, haside.scheduler, .inr haside.reveal, ?_⟩
    rw [hnone]
    exact .refl _

/-- The same is true of the first run, and there is no note to be given up. -/
theorem enrolled_recites {text : String} {after : α}
    {notes : Dialogue Rat α ω → List (Note Rat)} (hfree : d.reveal = none)
    (hnotes : ∀ d, Recites m complete (notes d) d (complete after d).1) :
    Recites m complete (runNotes m text notes (d.enrolled m)) (d.enrolled m)
      ((d.enrolled m).runReveal m text after (complete after)).1 := by
  obtain ⟨d₁, hscheduler, hreveal, hrecites⟩ := runReveal_recites hnotes (d.enrolled m)
  have hfree' : (d.enrolled m).reveal = none := hfree
  rw [hfree', or_self] at hreveal
  exact .aside ⟨hscheduler, hreveal.trans hfree'.symm⟩ hrecites

/-- When the line has been shown, its reveal is begun without breaking off. -/
theorem startReveal_eq {text : String} {after : α}
    {notes : Dialogue Rat α ω → List (Note Rat)}
    (hnotes : ∀ d, Recites m complete (notes d) d (complete after d).1) (d : Dialogue Rat α ω) :
    d.startReveal m text after (complete after) =
      (d.openLine m text).andThen fun d => (d.beginReveal m text after (complete after), none) := by
  have hopen : (d.cancelReveal m.stage).Aside (d.openLine m text).1 := openLine_aside m text d
  have hstart : d.startReveal m text after (complete after) =
      (d.openLine m text).andThen fun d =>
        let (r, id) := (host m.stage).start (.str "reveal_line")
          (runReveal m text after (complete after)) d
        (r.mapError Fault.misfit).andThen fun d => ({ d with reveal := some id }, none) := rfl
  rw [hstart]
  obtain ⟨⟨d₁, e⟩, hd₁⟩ : ∃ r, d.openLine m text = r := ⟨_, rfl⟩
  rw [hd₁] at hopen ⊢
  cases e with
  | some e => rfl
  | none =>
    have hfree : d₁.reveal = none := hopen.reveal.trans (cancelReveal_reveal m.stage d)
    have hnone := Host.Acts.start_none (host_lawful m.stage).stores (.str "reveal_line")
      (runReveal m text after (complete after)) (enrolled_recites hfree hnotes).acts
    have hid : ((host m.stage).start (.str "reveal_line")
        (runReveal m text after (complete after)) d₁).2 = d₁.scheduler.tasks.length := by
      unfold Host.start
      simp only
      split
      · rfl
      · split <;> rfl
    simp only [Attempt.andThen_none, beginReveal]
    obtain ⟨⟨⟨d₂, e⟩, id⟩, hd₂⟩ : ∃ r, (host m.stage).start (.str "reveal_line")
      (runReveal m text after (complete after)) d₁ = r := ⟨_, rfl⟩
    rw [hd₂] at hnone hid ⊢
    obtain rfl : e = none := hnone
    obtain rfl : id = d₁.scheduler.tasks.length := hid
    rfl

/-- A reveal is begun, with its notes. -/
theorem startReveal_recites (text : String) {after : α}
    {notes : Dialogue Rat α ω → List (Note Rat)}
    (hnotes : ∀ d, Recites m complete (notes d) d (complete after d).1) (d : Dialogue Rat α ω) :
    Recites m complete (startNotes m text after (complete after) notes d) d
      (d.startReveal m text after (complete after)).1 := by
  have hopen : (d.cancelReveal m.stage).Aside (d.openLine m text).1 := openLine_aside m text d
  rw [startReveal_eq hnotes]
  unfold startNotes
  obtain ⟨⟨d₁, e⟩, hd₁⟩ : ∃ r, d.openLine m text = r := ⟨_, rfl⟩
  rw [hd₁] at hopen ⊢
  cases e with
  | some e => exact .cancel (.aside hopen (.refl _))
  | none =>
    have hfree : d₁.reveal = none := hopen.reveal.trans (cancelReveal_reveal m.stage d)
    have hbegin := Recites.start text after hfree (enrolled_recites hfree hnotes) (.refl _)
    rw [List.append_nil] at hbegin
    exact .cancel (.aside hopen hbegin)

end VisualNovel.Dialogue
