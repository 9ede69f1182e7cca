import VisualNovel.Canvas
import VisualNovel.Focus
import VisualNovel.Json.Access
import VisualNovel.Notice
import VisualNovel.Tag
/-!
# The journal

What happens in a game can be written down as JSON: an entry is a list that starts with the name of
what happened. This module has the entries for calls, events, strokes and reports, which everything
else is made of.
-/
namespace VisualNovel

/-- An entry of the journal. -/
def Json.entry (name : String) (items : List Json) : Json := .arr (.str name :: items)

/-- A report: its level and its text. -/
def Log.Entry.toJson (e : Log.Entry) : Json :=
  let level := match e.level with
    | .debug => "DEBUG"
    | .info => "INFO"
    | .warning => "WARNING"
    | .error => "ERROR"
  .arr [.str level, .str e.text]

/-- A directive: its kind, and its parts by name. -/
def Directive.toJson (d : Directive) : Json :=
  let kind (k : String) (parts : List (String × String)) : Json :=
    .obj (("kind", .str k) :: parts.map fun (n, v) => (n, .str v))
  match d with
  | .speaker n => kind "Speaker" [("name", n)]
  | .expression c p => kind "Expression" [("character", c), ("expression_id", p)]
  | .splash b => kind "Splash" [("splash_id", b)]
  | .playSound s => kind "PlaySound" [("name", s)]
  | .stopSound s => kind "StopSound" [("name", s)]
  | .switchTheme s => kind "SwitchTheme" [("name", s)]
  | .unknown k v => kind "Unknown" [("key", k), ("value", v)]

/-- A choice: its text and its number. -/
def Choice.toJson (c : Choice) : Json := .arr [.str c.text, .int c.index]

/-- A call. -/
def Call.toJson : Call → Json
  | .play s => .entry "play" [s]
  | .stop s => .entry "stop" [.str s]
  | .switchTheme s => .entry "switch_theme" [.str s]
  | .expression c p => .entry "expression" [.str c, .str p]
  | .splash b => .entry "splash" [.str b]
  | .name t => .entry "name" [.str t]
  | .line t => .entry "line" [.str t]
  | .visible n => .entry "visible" [.ofNat n]
  | .choices cs => .entry "choices" [.ofList Choice.toJson cs]
  | .hideChoices => .entry "hide_choices" []
  | .clearFocus => .entry "clear_focus" []
  | .focus i => .entry "focus" [.ofNat i]

/-- The data of an event, part by part. -/
def Detail.toJson : Detail → Json
  | .nothing => .obj []
  | .scene n => .obj [("scene_name", .str n)]
  | .sound n => .obj [("name", .str n)]
  | .theme n p => .obj [("name", .ofOption .str n), ("previous", .ofOption .str p)]
  | .line t tags => .obj [("text", .str t), ("tags", .ofTexts tags)]
  | .text t => .obj [("text", .str t)]
  | .choices cs =>
    let option (c : Choice) : Json :=
      .obj [("kind", .str "ChoiceOption"), ("display_text", .str c.text), ("index", .int c.index)]
    .obj [("choices", .ofList option cs)]
  | .choice i t => .obj [("index", .int i), ("text", .str t)]
  | .action a => .obj [("action", .str ("Action." ++ a.name))]

/-- An event that was delivered. -/
def Notice.toJson (n : Notice) : Json := .entry "event" [.str n.topic.name, n.data.toJson]

/-- The target of the focus. -/
def Target.toJson (t : Option Target) : Json := .ofOption value t

/-- A width and a height. -/
def Size.toJson (s : Size) : Json := .arr [.int s.width, .int s.height]

/-- A position, a width and a height. -/
def Rect.toJson (r : Rect) : Json := .arr [.int r.x, .int r.y, .int r.width, .int r.height]

/-- A color, part by part. -/
def Color.toJson (c : Color) : Json := .arr c

/-- A picture: what it is made of, and its size. -/
def Picture.toJson : Picture → Json
  | .text t color f size alpha =>
    .obj ([("text", t), ("color", color.toJson),
      ("font", .arr [.ofOption .str f.source?, .int f.size, .bool f.bold, .bool f.italic]),
      ("size", size.toJson)] ++ (alpha.map fun a => ("alpha", a)).toList)
  | .filled color size => .obj [("filled", color.toJson), ("size", size.toJson)]
  | .image path size converted =>
    .obj ([("image", .str path), ("size", size.toJson)] ++
      if converted then [("converted", .bool true)] else [])
  | .scaled source size => .obj [("scaled", source.toJson), ("size", size.toJson)]

/-- A stroke. -/
def Stroke.toJson : Stroke → Json
  | .fill s c => .entry "fill" [.str s, c.toJson]
  | .blit s p x y => .entry "blit" [.str s, p.toJson, .arr [.int x, .int y]]
  | .rect s c r w => .entry "rect" [.str s, c.toJson, r.toJson, w]
  | .fontInit => .entry "font_init" []
  | .systemFont size => .entry "font" [.str "sys", .null, .int size]
  | .fileFont file size => .entry "font" [.str "file", .str file, .int size]
  | .imageLoad path => .entry "image_load" [.str path]

end VisualNovel
