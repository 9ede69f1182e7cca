import VisualNovel.Journal.Basic
import VisualNovel.Json.Writer
import VisualNovel.TaskScript
/-!
# Task scripts as documents

A task is an object with an `id`, a `name` and a `body`, which is a list of instructions; an
instruction is a list that starts with its name.
-/
namespace VisualNovel

mutual

/-- Reads an instruction; an unknown one leaves its list. -/
def Instruction.ofJson : Json → Instruction Json
  | .arr [.str "mark", v] => .mark v
  | .arr [.str "wait", s] => .wait s
  | .arr (.str "tick" :: _) => .tick
  | .arr (.str "yield" :: _) => .tick
  | .arr (.str "raise" :: _) => .fail
  | .arr [.str "repeat", n, .arr body] =>
    match n.count with
    | .ok n => .repeatTimes n.toNat (Instruction.ofItems body)
    | .error _ => .fail
  | .arr [.str "start", .obj task] =>
    .start (Json.field "id" (.obj task)) (Json.field "name" (.obj task)) (Instruction.ofBody task)
  | .arr [.str "cancel", id] => if id.isKey then .cancel id else .fail
  | .arr [.str "try_cancel", id] => if id.isKey then .tryCancel id else .fail
  | _ => .leave

/-- Reads instructions. -/
def Instruction.ofItems : List Json → List (Instruction Json)
  | [] => []
  | j :: js => Instruction.ofJson j :: Instruction.ofItems js

/-- Reads the instructions of the `body` among the members of a task. -/
def Instruction.ofBody : List (String × Json) → List (Instruction Json)
  | [] => []
  | (name, .arr body) :: ms =>
    if name = "body" then Instruction.ofItems body else Instruction.ofBody ms
  | _ :: ms => Instruction.ofBody ms

end

/-- What a task body left behind. -/
def TaskMark.toJson : TaskMark → Json
  | .mark v => .entry "mark" [v]
  | .noTask key => .entry "no_task" [key]
  | .cancelFailed key => .entry "cancel_failed" [key]
  | .closed => .entry "closed" []

/-- A key as the name of a member. -/
def memberName : Json → String
  | .str s => s
  | j => j.toLine

/-- A workshop: its clock, and its tasks by key. -/
def Workshop.toJson (w : Workshop Json) : Json :=
  let task (t : Task Json (Instructions Json)) : Json :=
    .arr [t.name, .bool t.done, .bool t.cancelled]
  let s := w.scheduler
  .obj [("time", s.time), ("tick", .ofNat s.tick),
    ("active", .ofList (·.name) s.active),
    ("tasks", .obj (w.keys.filterMap fun (key, id) =>
      (s.task? id).map fun t => (memberName key, task t)))]

end VisualNovel
