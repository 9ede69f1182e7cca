import VisualNovel.Json.Value
import VisualNovel.Text.Wrap
/-!
# Wrapping to any width

The width of a row is its length times the width of a character. Both that width and the limit may
be any values, so long as they are numbers; a width may be negative, and nothing is at most what is
not a number.
-/
namespace VisualNovel.Text

/-- The width of a number of characters. -/
def widthOf (charWidth : Number) (length : Nat) : Except Misfit Number :=
  Number.combine (· * ·) (· * ·) charWidth (.int length)

/-- Whether that many characters fit; what has no width does not. -/
def fitsWithin (charWidth limit : Number) (length : Nat) : Bool :=
  (widthOf charWidth length).toOption.any fun width => Number.le width limit

/-- The rows of what can be wrapped: a text, for numbers as widths. -/
def wrapValue (charWidth limit text : Json) : Except Misfit (List String) :=
  match text with
  | .str s => do
    let fits := fitsWithin (← charWidth.number) (← limit.number)
    return (wrapBy fits s.toList).map String.ofList
  | _ => .error .part

end VisualNovel.Text
