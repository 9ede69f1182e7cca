import VisualNovel.Json.Value
import VisualNovel.Number.Text
/-!
# Drawing

What can be drawn, and the strokes that draw it. A surface is known by its name. Sizes and positions
are whole pixels; a value stands for the pixel that its integer part gives. The edges of a rectangle
have 32 bits. The parts of a color and the width of an outline are handed on as they are.
-/
namespace VisualNovel

/-- Red, green and blue, and maybe how opaque. -/
abbrev Color := List Json

namespace Color

/-- Reads a color. -/
def ofJson : Json → Except Misfit Color
  | .arr parts => .ok parts
  | _ => .error .kind

/-- The color without its opacity. -/
def opaquePart (c : Color) : Color := c.take 3

/-- The opacity of a color that is not fully opaque. -/
def alpha? (c : Color) : Except Misfit (Option Json) :=
  match c with
  | [_, _, _, a] => a.number.map fun n => if Number.lt n (.int 255) then some a else none
  | _ => .ok none

end Color

/-- A width and a height. -/
structure Size where
  width : Int
  height : Int
  deriving DecidableEq, Repr

/-- A rectangle: its left and top, its width and height. -/
structure Rect where
  x : Int
  y : Int
  width : Int
  height : Int
  deriving DecidableEq, Repr

/-- The whole pixel that a value stands for. -/
def pixel : Json → Except Misfit Int
  | .str s => (Number.intOfText? s).elim (.error .value) .ok
  | j => j.number >>= Number.truncate

/-- An edge of a new rectangle: the last 32 of at most 64 bits. -/
def newEdge (n : Int) : Except Misfit Int :=
  if -9223372036854775808 ≤ n ∧ n < 9223372036854775808 then .ok (n.bmod 4294967296)
  else .error .kind

/-- The place an edge is moved to: at most 32 bits. -/
def movedEdge (n : Int) : Except Misfit Int :=
  if -2147483648 ≤ n ∧ n < 2147483648 then .ok n else .error .kind

/-- A rectangle at a position, of a size. -/
def Rect.ofValues (x y width height : Json) : Except Misfit Rect := do
  let x ← pixel x
  let y ← pixel y
  let width ← pixel width
  let height ← pixel height
  return ⟨← newEdge x, ← newEdge y, ← newEdge width, ← newEdge height⟩

/-- The smallest rectangle around two. -/
def Rect.union (a b : Rect) : Rect :=
  let x := min a.x b.x
  let y := min a.y b.y
  ⟨x, y, max (a.x + a.width) (b.x + b.width) - x, max (a.y + a.height) (b.y + b.height) - y⟩

/-- A font: the one the system gives, or one from a file; an empty name is no file. -/
structure Font where
  file : Option String := none
  size : Int := 28
  bold : Bool := false
  italic : Bool := false
  deriving DecidableEq, Repr

namespace Font

/-- The file a font comes from. -/
def source? (f : Font) : Option String := f.file.filter (· ≠ "")

/-- The width of a character. -/
def charWidth (f : Font) : Int := f.size / 2 + if f.bold then 1 else 0

/-- The size of a text on one row. -/
def sizeOf (f : Font) (text : Json) : Except Misfit Size :=
  text.size.map fun length => ⟨length * f.charWidth, f.size⟩

end Font

/-- Something to be drawn on a surface. -/
inductive Picture where
  /-- A text; the opacity if it is not full. -/
  | text (text : Json) (color : Color) (font : Font) (size : Size) (alpha : Option Json)
  /-- A rectangle full of a color. -/
  | filled (color : Color) (size : Size)
  /-- The image in a file, and whether it is in the format of the screen. -/
  | image (path : String) (size : Size) (converted : Bool)
  /-- A picture brought to another size. -/
  | scaled (source : Picture) (size : Size)

/-- The size of a picture. -/
def Picture.size : Picture → Size
  | text _ _ _ size _ => size
  | filled _ size => size
  | image _ size _ => size
  | scaled _ size => size

/-- One thing that is done to draw. -/
inductive Stroke where
  | fill (surface : String) (color : Color)
  | blit (surface : String) (picture : Picture) (x y : Int)
  /-- A rectangle; width zero is a filled one. -/
  | rect (surface : String) (color : Color) (rect : Rect) (width : Json)
  /-- The fonts are made ready. -/
  | fontInit
  /-- A font of the system is made. -/
  | systemFont (size : Int)
  /-- A font is made from a file. -/
  | fileFont (file : String) (size : Int)
  /-- An image is loaded. -/
  | imageLoad (path : String)

end VisualNovel
