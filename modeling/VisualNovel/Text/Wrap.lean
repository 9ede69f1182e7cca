import VisualNovel.Text.Split
/-!
# Word wrap

Text is wrapped into rows for a font whose characters are all of one width. Every paragraph, up to
a line feed, starts a row. A word goes on the current row, behind one space, if the row then still
fits; otherwise it starts the next row. A word that is too wide stands alone on its row.
-/
namespace VisualNovel.Text

/-- A word behind what the current row holds. -/
def extendRow (row word : List Char) : List Char :=
  if row.isEmpty then word else row ++ ' ' :: word

/-- The rows of words, the first one begun already. -/
def wrapWords (fits : List Char → Bool) : (row : List Char) → (words : List (List Char)) →
    List (List Char)
  | row, [] => [row]
  | row, word :: words =>
    if fits (extendRow row word) then wrapWords fits (extendRow row word) words
    else if row.isEmpty then wrapWords fits word words
    else row :: wrapWords fits word words

/-- The rows of a paragraph. -/
def wrapParagraph (fits : List Char → Bool) (paragraph : List Char) : List (List Char) :=
  wrapWords fits [] (splitAt ' ' paragraph)

/-- The rows of a text, for rows that fit or do not by their lengths. -/
def wrapBy (fits : Nat → Bool) (text : List Char) : List (List Char) :=
  (splitAt '\n' text).flatMap (wrapParagraph fun row => fits row.length)

/-- The rows of a text whose rows are at most `limit` wide, with characters `charWidth` wide. -/
def wrap (charWidth : Nat) (limit : Int) (text : List Char) : List (List Char) :=
  wrapBy (fun length => (charWidth * length : Nat) ≤ limit) text

end VisualNovel.Text
