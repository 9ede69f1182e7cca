import VisualNovel.Dialogue.Rehearsal
import VisualNovel.HandlerScript.Document
import VisualNovel.Input.Document
import VisualNovel.Journal.State
/-!
# Rehearsals as documents

An order is a list that starts with its name; a story is an object with the text of a script under
`ink`, or else content. A hook is an object with its event, its priority, the number of calls it
acts on, and a list of what it does.
-/
namespace VisualNovel

/-- Reads a story to begin. -/
def Material.ofJson (j : Json) : Material :=
  (j.get? "ink").elim (.content j) .script

/-- Reads an order; an unknown one breaks the dialogue off. -/
def Order.ofJson (j : Json) : Order Json :=
  match j.items with
  | [.str "start", story] => .begin (.ofJson story)
  | .str "update" :: dt :: rest => .update dt (rest.headD (.int 1))
  | .str "advance" :: _ => .advance
  | .str "continue" :: _ => .goOn
  | [.str "choose", i] => .choose i
  | [.str "action", a] => .act a.shown
  | [.str "move", d] => .move d
  | _ => .shutdown

/-- Reads what a hook does. -/
def HookStep.ofJson (j : Json) : HookStep Json :=
  match j.items with
  | .str "consume" :: _ => .consume
  | _ => .order (.ofJson j)

/-- Reads a hook. -/
def Hook.ofJson (j : Json) : Hook Json where
  topic := .ofJson (j.field "event")
  priority := (j.get? "priority").getD (.int 0)
  left := (j.field "max").limit?.getD 1
  steps _ := (j.field "do").items.map .ofJson

/-- What a rehearsal left behind. -/
def RehearsalMark.toJson : RehearsalMark → Json
  | .call c => c.toJson
  | .notice n => n.toJson
  | .hooked t => .entry "hook" [.str t.name]
  | .ended => .entry "on_end" []

/-- A dialogue in rehearsal: its session, its tasks, and where its story stands. -/
def Rehearsal.toJson (d : Rehearsal Json) : Json :=
  .obj (d.session.fields ++
    [("tasks", .arr d.taskNames), ("listening", .bool d.outside.isListening),
      ("node", .ofOption .str (d.story.bind (·.nodeId?)))] ++
    (d.outside.view.map fun v => ("view", v.toJson)).toList)

end VisualNovel
