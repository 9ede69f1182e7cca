import VisualNovel.Attempt
import VisualNovel.Canvas
import VisualNovel.Text.Width
/-!
# The painter

The painter draws rectangles and text on a surface. It makes each font once, when it is first
needed. A color that is not fully opaque is laid over what is there. A text may be wrapped, and
stands to the right of its position, in the middle of it or to the left of it.

Positions, sizes, colors and texts may be any values. What does not fit is found out where it is
used, and the strokes that were made up to there stay.
-/
namespace VisualNovel

/-- Where a text stands as seen from its position. -/
inductive Align where
  | left
  | center
  | right
  deriving DecidableEq, Repr

/-- A painter: its surface, the fonts it has made, whether fonts are ready, and its strokes. -/
structure Painter where
  surface : String
  fonts : List Font := []
  fontsReady : Bool := true
  strokes : List Stroke := []

namespace Painter

/-- Makes strokes. -/
def add (strokes : List Stroke) (p : Painter) : Painter :=
  { p with strokes := p.strokes ++ strokes }

/-- Makes strokes, if they can be made. -/
def attempt (strokes : Except Misfit (List Stroke)) (p : Painter) : Attempt Painter Misfit :=
  match strokes with
  | .ok strokes => (p.add strokes, none)
  | .error e => (p, some e)

/-- The stroke that makes a font. -/
def fontStroke (f : Font) : Stroke :=
  match f.source? with
  | some file => .fileFont file f.size
  | none => .systemFont f.size

/-- Sees to it that a font is there. -/
def need (f : Font) (p : Painter) : Painter :=
  if f ∈ p.fonts then p
  else
    let ready := if p.fontsReady then [] else [Stroke.fontInit]
    { p with fonts := p.fonts ++ [f], fontsReady := true }.add (ready ++ [fontStroke f])

/-- A filled rectangle. -/
def rect (x y width height color : Json) (p : Painter) : Attempt Painter Misfit :=
  p.attempt do
    let color ← Color.ofJson color
    match ← color.alpha? with
    | some _ =>
      let width ← pixel width
      let height ← pixel height
      return [.blit p.surface (.filled color ⟨width, height⟩) (← pixel x) (← pixel y)]
    | none =>
      return [.rect p.surface color.opaquePart (← Rect.ofValues x y width height) (.int 0)]

/-- The outline of a rectangle. -/
def outline (x y width height color thickness : Json) (p : Painter) : Attempt Painter Misfit :=
  p.attempt do
    let rect ← Rect.ofValues x y width height
    return [.rect p.surface (← Color.ofJson color).opaquePart rect thickness]

/-- The left edge of a row. -/
def leftOf (align : Align) (x width : Int) : Int :=
  match align with
  | .left => x
  | .center => x - width / 2
  | .right => x - width

/-- A row of a text: the place it takes, and what there is to draw. -/
def row (font : Font) (color : Json) (align : Align) (x y : Int) (content : Json) :
    Except Misfit (Rect × Picture) := do
  let color ← Color.ofJson color
  let size ← font.sizeOf content
  let place : Rect := ⟨leftOf align (← movedEdge x) size.width, ← movedEdge y, size.width,
    size.height⟩
  return (place, .text content color.opaquePart font size (← color.alpha?))

/-- The rows of a text from a height on, with the rectangle around them and what was there. What
counts as false is no row, but leaves room for one. -/
def rows (font : Font) (color : Json) (align : Align) (x : Int) :
    (y : Int) → List Json → Rect → Painter → Painter × Except Misfit Rect
  | _, [], around, p => (p, .ok around)
  | y, content :: rest, around, p =>
    if !content.isTruthy then rows font color align x (y + font.size) rest around p
    else
      match row font color align x y content with
      | .ok (place, picture) =>
        rows font color align x (y + font.size) rest (around.union place)
          (p.add [.blit p.surface picture place.x place.y])
      | .error e => (p, .error e)

/-- The rows of a text for a font, its position, and the rectangle that begins there. -/
def layOut (content x y : Json) (font : Font) (limit : Json) :
    Except Misfit (List Json × Int × Int × Rect) := do
  let rows ←
    if limit.isTruthy then
      (Text.wrapValue (.int font.charWidth) limit content).map (·.map Json.str)
    else .ok [content]
  let around ← Rect.ofValues x y (.int 0) (.int 0)
  return (rows, ← pixel x, ← pixel y, around)

/-- A text, wrapped if there is a limit to its width. The result has the rectangle around it. -/
def text (content x y color : Json) (font : Font) (align : Align) (limit : Json)
    (p : Painter) : Painter × Except Misfit Rect :=
  let p := p.need font
  match layOut content x y font limit with
  | .error e => (p, .error e)
  | .ok (rows, x, y, around) => p.rows font color align x y rows around

/-- A text that is not wrapped. -/
def write (content : Json) (x y : Float) (color : Json) (font : Font) (align : Align)
    (p : Painter) : Attempt Painter Misfit :=
  match p.text content (.real x) (.real y) color font align .null with
  | (p, .ok _) => (p, none)
  | (p, .error e) => (p, some e)

/-- The size of a text. -/
def measure (content : Json) (font : Font) (p : Painter) : Painter × Except Misfit Size :=
  (p.need font, font.sizeOf content)

/-- A picture, in another size if one is given. -/
def picture (source : Picture) (x y width height : Json) (p : Painter) : Attempt Painter Misfit :=
  p.attempt do
    let shown ←
      if width.isTruthy && height.isTruthy then
        .ok (source.scaled ⟨← pixel width, ← pixel height⟩)
      else .ok source
    return [.blit p.surface shown (← pixel x) (← pixel y)]

end Painter
end VisualNovel
