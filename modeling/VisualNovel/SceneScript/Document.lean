import VisualNovel.Journal.Basic
import VisualNovel.SceneScript
/-!
# Scene scripts as documents

A class of scenes is an object; under `do` it has a list of orders for each thing its scenes are
told. An order is a list that starts with its name.
-/
namespace VisualNovel

/-- Reads a change of the stack; an unknown one takes the top scene away. -/
def SceneChange.ofJson (j : Json) : SceneChange String :=
  match j.items with
  | [.str "push", .str c] => .push c
  | [.str "switch", .str c] => .switch c
  | .str "reload" :: _ => .reload
  | .str "clear" :: _ => .clear
  | _ => .pop

/-- Reads an order. -/
def SceneOrder.ofJson (j : Json) : SceneOrder :=
  match j.items with
  | [.str "update", dt] => .update dt
  | [.str "render", alpha] => .render alpha
  | [.str "event", kind] => .handle kind
  | [.str "resize", w, h] => .resize w h
  | _ => .ask (.ofJson j)

/-- The cue with a name. -/
def SceneCue.ofName : String → SceneCue
  | "enter" => .enter
  | "exit" => .exit
  | "destroy" => .destroy
  | "resize" => .resize
  | "update" => .update
  | "render" => .render
  | _ => .handle

/-- Reads a class of scenes. -/
def SceneClass.ofJson (j : Json) : SceneClass where
  transparent := (j.get? "transparent").any Json.isTruthy
  blocksUpdate := (j.get? "blocks_update").all Json.isTruthy
  requests := (j.field "do").members.map fun (cue, requests) =>
    (.ofName cue, requests.items.map fun r => ⟨.ofJson (r.field "op"), (r.field "max").limit?⟩)

/-- A scene: its class and its number. -/
def SceneTag.toJson (k : SceneTag) : Json := .str (k.name ++ "#" ++ toString k.number)

/-- What a scene left behind. -/
def SceneMark.toJson : SceneMark → Json
  | .entered k a => .entry "enter" [k.toJson, .bool a]
  | .exited k a => .entry "exit" [k.toJson, .bool a]
  | .destroyed k => .entry "destroy" [k.toJson]
  | .resized k w h => .entry "resize" [k.toJson, w, h]
  | .updated k dt => .entry "update" [k.toJson, dt]
  | .rendered k a => .entry "render" [k.toJson, a]
  | .handled k n => .entry "handle" [k.toJson, n, .bool false]
  | .published t n => Notice.toJson ⟨t, .scene n⟩

/-- A playhouse: its stack from the bottom up, and the scene on top. -/
def Playhouse.toJson (p : Playhouse) : Json :=
  let scene (k : SceneTag) : Json := .arr [k.toJson, .str k.name, .bool (p.isActive k)]
  .obj [("stack", .ofList scene p.scenes.bottomUp),
    ("current", .ofOption SceneTag.toJson p.scenes.current?),
    ("empty", .bool p.scenes.stack.isEmpty)]

end VisualNovel
