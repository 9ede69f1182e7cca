import VisualNovel.Focus
import VisualNovel.Stage
import VisualNovel.Text.Blank
/-!
# The view

The screen of a novel: a start panel with one button, and a dialogue panel with the name of the
speaker, the revealed part of a line, and a button for each choice that there is a slot for. The
start button and the slots can have the focus.

The title, the name and what stands on a button may be any values; what is no text shows when it is
drawn.
-/
namespace VisualNovel

/-- The start button as a target of the focus. -/
def startButton : Target := .button "start"

/-- A button of a choice. -/
structure Button where
  label : Json
  /-- What the choice is known by. -/
  index : Json
  deriving DecidableEq

/-- The button of a choice of a story. -/
def Button.ofChoice (c : Choice) : Button := ⟨.str c.text, .int c.index⟩

/-- What the screen shows. -/
structure View where
  width : Number
  height : Number
  slots : Slots := .count 3
  title : Json := .str ""
  focus : Focus := {}
  startPanel : Bool := false
  dialoguePanel : Bool := false
  /-- The name of the speaker. -/
  name : Json := .str ""
  line : String := ""
  /-- How many characters of the line are shown. -/
  visible : Nat := 0
  choices : List Button := []
  deriving DecidableEq

namespace View

/-- Gives a target the focus, or takes it away. -/
def setFocus (t : Option Target) (v : View) : View := { v with focus := (v.focus.set t).1 }

/-- Holds the next line; none of it is shown. -/
def setLine (text : String) (v : View) : View := { v with line := text, visible := 0 }

/-- Shows the first characters of the line. -/
def setVisible (count : Int) (v : View) : View :=
  { v with visible := (max 0 (min count v.line.length)).toNat }

/-- Holds choices, each in a slot of its own. -/
def hold (choices : List Button) (v : View) : View :=
  let order := (List.range choices.length).map fun i => some (.slot i)
  { v with choices, focus := { v.focus with order } }

/-- Offers the choices that there are slots for. -/
def showChoices (choices : List Button) (v : View) : Except Misfit View :=
  (v.slots.cut choices).map (hold · v)

/-- Takes the choices away, and the focus, unless the start button has it. -/
def hideChoices (v : View) : View :=
  let v := { v with choices := [], focus := { v.focus with order := [] } }
  if v.focus.focused = some startButton then v else v.setFocus none

/-- Whether a number is that of a slot with a choice, or lies between two of them. -/
def hasSlot (n : Number) (v : View) : Bool :=
  Number.le (.int 0) n && Number.lt n (.int v.choices.length)

/-- Focuses the choice in a slot, if there is one. -/
def focusChoice (slot : Int) (v : View) : View :=
  if v.hasSlot (.int slot) then v.setFocus (some (.slot slot)) else v

/-- Focuses the choice in the slot that a value stands for; the value becomes the target. -/
def focusChoiceBy (slot : Json) (v : View) : Except Misfit View :=
  slot.number.map fun n => if v.hasSlot n then v.setFocus (Target.ofValue? slot) else v

/-- Shows the start panel. -/
def showStart (v : View) : View := { v with startPanel := true, dialoguePanel := false }

/-- Shows the dialogue panel; the start button loses the focus. -/
def showDialogue (v : View) : View :=
  let v := { v with startPanel := false, dialoguePanel := true }
  if v.focus.focused = some startButton then v.setFocus none else v

/-- Whether the start button is there and has the focus. -/
def startFocused (v : View) : Bool := v.startPanel && v.focus.focused = some startButton

/-- What stands for the slot of the choice that has the focus; beside an integer that may be a truth
value. -/
def focusedChoice? (v : View) : Option Json :=
  let slot := v.focus.focused.map Target.value
  slot.filter fun j => j.count.toOption.any fun n => v.hasSlot (.int n)

/-- Moves the focus between the choices; says whether it moved. -/
def moveFocus (delta : Int) (v : View) : View × Bool :=
  if v.choices.isEmpty then (v, false)
  else
    let (focus, change) := v.focus.navigate delta
    ({ v with focus }, change.isSome)

/-- Moves the focus between the choices by the steps that any value stands for. -/
def moveFocusBy (delta : Json) (v : View) : Except Misfit (View × Bool) :=
  if v.choices.isEmpty then .ok (v, false)
  else (v.focus.navigateBy delta).map fun (focus, change) => ({ v with focus }, change.isSome)

/-- The part of the line that is shown. -/
def visibleText (v : View) : String := .ofList (v.line.toList.take v.visible)

/-- Answers a call of a dialogue; sounds and images are not the view's. -/
def perform (c : Call) (v : View) : Except Misfit View :=
  match c with
  | .name text => .ok { v with name := .str text }
  | .line text => .ok (v.setLine text)
  | .visible count => .ok (v.setVisible count)
  | .choices offered => v.showChoices (offered.map Button.ofChoice)
  | .hideChoices => .ok v.hideChoices
  | .clearFocus => .ok (v.setFocus none)
  | .focus slot => .ok (v.focusChoice slot)
  | .play _ | .stop _ | .switchTheme _ | .expression _ _ | .splash _ => .ok v

end View
end VisualNovel
