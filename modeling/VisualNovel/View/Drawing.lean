import VisualNovel.Json.Access
import VisualNovel.Painter
import VisualNovel.View.Basic
/-!
# Drawing the view

The layout of the panels. The rows of a line are those of the whole line, so that text never moves
while it is revealed; of each row the part that is revealed is drawn.
-/
namespace VisualNovel.View

/-- The colors of the panels and buttons. -/
def panelColor : Json := .ofList .int [20, 24, 36, 225]
def panelBorder : Json := .ofList .int [110, 120, 150]
def textColor : Json := .ofList .int [235, 235, 245]
def nameColor : Json := .ofList .int [170, 200, 255]
def buttonColor : Json := .ofList .int [45, 52, 75, 235]
def focusedColor : Json := .ofList .int [85, 100, 150, 245]
def buttonBorder : Json := .ofList .int [140, 150, 185]
def focusedBorder : Json := .ofList .int [255, 235, 160]

/-- The fonts of lines and buttons, of the speaker's name and of the title. -/
def textFont : Font := { size := 30 }
def nameFont : Font := { size := 30, bold := true }
def titleFont : Font := { size := 64, bold := true }

/-- A rectangle full of one color with an outline of another. -/
def drawPanel (x y width height : Float) (inside border : Json) (thickness : Int) (p : Painter) :
    Attempt Painter Misfit :=
  (p.rect (.real x) (.real y) (.real width) (.real height) inside).andThen
    (Painter.outline (.real x) (.real y) (.real width) (.real height) border (.int thickness))

/-- A label in the middle of a rectangle. -/
def drawLabel (label : Json) (x y width height : Float) (p : Painter) : Attempt Painter Misfit :=
  match p.measure label textFont with
  | (p, .error e) => (p, some e)
  | (p, .ok size) =>
    p.write label (x + width / 2) (y + (height - Float.ofInt size.height) / 2) textColor textFont
      .center

/-- A button with a label in its middle. -/
def drawButton (label : Json) (x y width height : Float) (focused : Bool) (p : Painter) :
    Attempt Painter Misfit :=
  let inside := if focused then focusedColor else buttonColor
  let border := if focused then focusedBorder else buttonBorder
  (drawPanel x y width height inside border (if focused then 3 else 1) p).andThen
    (drawLabel label x y width height)

/-- The start panel: the title and the start button. -/
def drawStart (v : View) (width height : Float) (p : Painter) : Attempt Painter Misfit :=
  (p.write v.title (width / 2) (height * 0.3) textColor titleFont .center).andThen
    (drawButton (.str "Start") ((width - 240) / 2) (height * 0.6) 240 64
      (v.focus.focused = some startButton))

/-- Where a row begins in a line, looked for from a position on: at its first occurrence, or right
there if there is none. -/
def rowStart (row line : List Char) (cursor : Nat) : Nat :=
  let rec find : (here : Nat) → List Char → Option Nat
    | i, [] => if row.isEmpty then some i else none
    | i, c :: s => if row.isPrefixOf (c :: s) then some i else find (i + 1) s
  (find cursor (line.drop cursor)).getD cursor

/-- The revealed part of each row that has one, from a position in the line on. -/
def shownRows (line : List Char) (visible : Nat) : (cursor : Nat) → List (List Char) →
    List (List Char)
  | _, [] => []
  | cursor, row :: rows =>
    let start := rowStart row line cursor
    if visible ≤ start then []
    else row.take (visible - start) :: shownRows line visible (start + row.length) rows

/-- The whole number of pixels that a row of the line has room in. -/
def lineLimit (v : View) : Int :=
  match v.width with
  | .int n => n - 48 - 40
  | .real x => (Number.floor? (x - 48 - 40)).getD 0

/-- The rows of the view's line that are drawn in a font, as far as they are revealed. -/
def lineRows (v : View) (font : Font) : List (List Char) :=
  let line := v.line.toList
  shownRows line v.visible 0 (Text.wrap font.charWidth.toNat v.lineLimit line)

/-- Rows of text in a font, one below the other. -/
def drawRows (font : Font) (x : Float) : (y : Float) → List (List Char) → Painter →
    Attempt Painter Misfit
  | _, [], p => (p, none)
  | y, row :: rows, p =>
    (p.write (.str (.ofList row)) x y textColor font .left).andThen
      (drawRows font x (y + Float.ofInt font.size) rows)

/-- The speaker's name, unless it is blank; only a text can be. -/
def drawName (v : View) (x y : Float) (p : Painter) : Attempt Painter Misfit :=
  match v.name with
  | .str name =>
    if (Text.trim name.toList).isEmpty then (p, none)
    else p.write v.name x y nameColor nameFont .left
  | _ => (p, some .part)

/-- The top of the dialogue panel. -/
def panelTop (height : Float) : Float := height - height * 0.28 - 24

/-- The left of the line on the dialogue panel. -/
def lineLeft : Float := 24 + 20

/-- The top of the line in a font. -/
def lineTop (font : Font) (height : Float) : Float := panelTop height + 24 + Float.ofInt font.size

/-- The dialogue panel without its line: the speaker's name on it, and the font that the line is
drawn in. -/
def drawFrame (v : View) (font : Font) (width height : Float) (p : Painter) :
    Attempt Painter Misfit :=
  let margin : Float := 24
  let y := panelTop height
  let panel := drawPanel margin y (width - 48) (height * 0.28) panelColor panelBorder 2 p
  (panel.andThen (v.drawName lineLeft (y + 14))).andThen fun p => (p.need font, none)

/-- The dialogue panel: the speaker's name and the line, in a font. -/
def drawDialogue (v : View) (font : Font) (width height : Float) (p : Painter) :
    Attempt Painter Misfit :=
  (v.drawFrame font width height p).andThen
    (drawRows font lineLeft (lineTop font height) (v.lineRows font))

/-- The buttons of the choices, from a slot on. -/
def drawSlots (v : View) (x y width : Float) :
    (slot : Nat) → List Button → Painter → Attempt Painter Misfit
  | _, [], p => (p, none)
  | slot, b :: buttons, p =>
    let focused := Target.same v.focus.focused (some (.slot slot))
    (drawButton b.label x (y + Float.ofNat slot * 72) width 56 focused p).andThen
      (drawSlots v x y width (slot + 1) buttons)

/-- The choices, in the middle above the dialogue panel. -/
def drawChoices (v : View) (width height : Float) (p : Painter) : Attempt Painter Misfit :=
  if v.choices.isEmpty then (p, none)
  else
    let count := v.choices.length
    let total : Int := count * 56 + (count - 1) * 16
    let button := width * 0.5
    let x := (width - button) / 2
    let y := (height * 0.6 - Float.ofInt total) / 2
    drawSlots v x y button 0 v.choices p

/-- Draws the panels that are shown in a width and a height. -/
def drawPanels (v : View) (width height : Float) (p : Painter) : Attempt Painter Misfit :=
  let started : Attempt Painter Misfit :=
    if v.startPanel then v.drawStart width height p else (p, none)
  started.andThen fun p =>
    if v.dialoguePanel then (v.drawDialogue textFont width height p).andThen (v.drawChoices width height)
    else (p, none)

/-- Draws the panels that are shown. -/
def draw (v : View) (p : Painter) : Attempt Painter Misfit :=
  if v.startPanel || v.dialoguePanel then
    match v.width.toFloat, v.height.toFloat with
    | .ok width, .ok height => v.drawPanels width height p
    | .error e, _ | _, .error e => (p, some e)
  else (p, none)

end VisualNovel.View
