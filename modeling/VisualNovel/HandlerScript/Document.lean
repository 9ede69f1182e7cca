import VisualNovel.HandlerScript
import VisualNovel.Journal.Basic
import VisualNovel.Json.Shown
/-!
# Handler scripts as documents

Commands and instructions are lists that start with their names; an instruction stands under `op`,
beside the number of calls it is limited to.
-/
namespace VisualNovel

/-- Reads the topic with a name. -/
def Topic.ofJson (j : Json) : Topic := (ofName? (j.textOr "")).getD .gameStart

/-- A command with a topic, if there is a topic with the name. -/
def BusCommand.withTopic (name : Json) (f : Topic → BusCommand) : BusCommand :=
  ((name.str?.bind Topic.ofName?).map f).getD (.misnamed name.shown)

/-- Reads a command of the bus; an unknown one clears it. -/
def BusCommand.ofJson (j : Json) : BusCommand :=
  match j.items with
  | .str "subscribe" :: h :: t :: rest =>
    let o := rest.headD .null
    withTopic t fun t => .subscribe h.shown t ((o.get? "priority").getD (.int 0))
      ((o.get? "one_shot").any Json.isTruthy) ((o.get? "weak").all Json.isTruthy)
  | [.str "unsubscribe", h, t] => withTopic t (.unsubscribe h.shown)
  | [.str "is_subscribed", h, t] => withTopic t (.isSubscribed h.shown)
  | .str "publish" :: t :: rest => withTopic t fun t => .publish t (rest.headD (.obj []))
  | [.str "clear", .null] => .clear none
  | .str "clear" :: t :: _ => withTopic t fun t => .clear (some t)
  | _ => .clear none

/-- Reads an instruction. -/
def HandlerStep.ofJson (j : Json) : HandlerStep :=
  match j.items with
  | .str "consume" :: _ => .consume
  | .str "raise" :: _ => .fail
  | .str "get" :: key :: rest => .get key (rest.headD .null)
  | [.str "item", key] => .item key
  | _ => .command (.ofJson j)

/-- Reads an instruction and its limit; where the limit is no number, to look at it is to fail. -/
def LimitedStep.ofJson (j : Json) : LimitedStep :=
  let limit := j.field "max"
  if limit.number.isOk || limit = .null then ⟨.ofJson (j.field "op"), limit.limit?⟩
  else ⟨.fail, none⟩

/-- Reads the instructions of a handler. -/
def LimitedStep.listOfJson (handler : Json) : List LimitedStep :=
  (handler.field "do").items.map .ofJson

/-- What a handler left behind; when it is called its event is not consumed yet. -/
def HandlerMark.toJson : HandlerMark → Json
  | .called h e => .entry "call" [.str h, .str e.topic.name, .obj e.data, .bool false]
  | .got v => .entry "got" [v]

/-- Texts in ascending order. -/
def sortedTexts (ts : List String) : List String := ts.mergeSort fun a b => !(b < a)

/-- The handlers that can be named and are subscribed to a topic that is watched. -/
def Forum.toJson (watch : List Topic) (f : Forum) : Json :=
  let names := sortedTexts ((f.scripts.map (·.1)).filter f.known)
  .arr (names.flatMap fun h => watch.filterMap fun t =>
    if f.bus.isSubscribed (f.isLive ·) t h then some (.arr [.str h, .str t.name]) else none)

end VisualNovel
