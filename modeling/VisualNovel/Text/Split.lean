/-!
# Splitting text at a character

Results:
* `splitAt_ne_nil`: there is always a first piece.
* `joinAt_splitAt`: the pieces joined by the separator are the text.
-/
namespace VisualNovel.Text

/-- The pieces between the occurrences of a separator. -/
def splitAt (separator : Char) : List Char → List (List Char)
  | [] => [[]]
  | c :: s =>
    if c = separator then [] :: splitAt separator s
    else
      match splitAt separator s with
      | [] => [[c]]
      | piece :: pieces => (c :: piece) :: pieces

/-- Pieces with a separator between any two. -/
def joinAt (separator : Char) : List (List Char) → List Char
  | [] => []
  | [piece] => piece
  | piece :: pieces => piece ++ separator :: joinAt separator pieces

theorem splitAt_ne_nil (separator : Char) (s : List Char) : splitAt separator s ≠ [] := by
  cases s with
  | nil => simp [splitAt]
  | cons c s =>
    simp only [splitAt]
    split
    · simp
    · split <;> simp

theorem joinAt_cons (separator : Char) (piece : List Char) {pieces : List (List Char)}
    (h : pieces ≠ []) :
    joinAt separator (piece :: pieces) = piece ++ separator :: joinAt separator pieces := by
  cases pieces with
  | nil => exact absurd rfl h
  | cons p ps => rfl

theorem joinAt_head (separator c : Char) (piece : List Char) (pieces : List (List Char)) :
    joinAt separator ((c :: piece) :: pieces) = c :: joinAt separator (piece :: pieces) := by
  cases pieces <;> rfl

/-- The pieces joined by the separator are the text. -/
theorem joinAt_splitAt (separator : Char) (s : List Char) :
    joinAt separator (splitAt separator s) = s := by
  induction s with
  | nil => rfl
  | cons c s ih =>
    simp only [splitAt]
    split
    · next h => rw [joinAt_cons _ _ (splitAt_ne_nil _ _), ih, h]; rfl
    · split
      · next h => exact absurd h (splitAt_ne_nil _ _)
      · next h => rw [joinAt_head, ← h, ih]

/-- No piece holds the separator. -/
theorem not_mem_of_mem_splitAt {separator : Char} {s piece : List Char}
    (h : piece ∈ splitAt separator s) : separator ∉ piece := by
  induction s generalizing piece with
  | nil => simp_all [splitAt]
  | cons c s ih =>
    simp only [splitAt] at h
    split at h
    · rcases List.mem_cons.1 h with rfl | h
      · simp
      · exact ih h
    · next hc =>
      split at h
      · next he => exact absurd he (splitAt_ne_nil _ _)
      · next p ps he =>
        rcases List.mem_cons.1 h with rfl | h
        · have := @ih p (by simp [he])
          simp [Ne.symm hc, this]
        · exact ih (by simp [he, h])

end VisualNovel.Text
