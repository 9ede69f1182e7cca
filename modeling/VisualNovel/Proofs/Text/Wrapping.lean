import Mathlib.Data.List.Basic
import Mathlib.Data.List.Forall2
import VisualNovel.Proofs.Text.Rows
import VisualNovel.Text.Width
/-!
# Wrapping loses nothing and is greedy

What becomes of one paragraph is said by `Wrapped`: some rows, each of which fits unless it is a
single word; nothing but spaces in front of them, between them and behind them; and no row could
have taken the first word of the next one as well. Only the last of these needs that a longer row
never fits where a shorter one does not (`Shortens`).

Results:
* `wrapped_wrapParagraph`: the rows of a paragraph are `Wrapped`.
* `wrapping_is_lossless_and_greedy`: the rows of a text, for characters of any width and for any
  limit.
-/
namespace VisualNovel.Text

/-- Rows that lie in a paragraph one behind the other, with spaces only beside them and at least one
space between any two. -/
inductive Spaced : (paragraph : List Char) → (rows : List (List Char)) → Prop
  | last {before row behind : List Char} : (∀ c ∈ before, c = ' ') → (∀ c ∈ behind, c = ' ') →
    Spaced (before ++ (row ++ behind)) [row]
  | row {before row rest : List Char} {rows : List (List Char)} : (∀ c ∈ before, c = ' ') →
    Spaced rest rows → Spaced (before ++ (row ++ ' ' :: rest)) (row :: rows)

/-- The word that a row begins with. -/
def firstWord (row : List Char) : List Char := row.takeWhile (· ≠ ' ')

/-- What the rows of a paragraph are. -/
structure Wrapped (fits : List Char → Bool) (paragraph : List Char) (rows : List (List Char)) :
    Prop where
  /-- There is a row, even for an empty paragraph. -/
  some : rows ≠ []
  /-- A row that does not fit is a single word. -/
  within : ∀ row ∈ rows, fits row = true ∨ ' ' ∉ row
  /-- The paragraph is kept, but for spaces in front of rows and behind them. -/
  spaced : Spaced paragraph rows
  /-- The first word of a row would not have fitted on the row before it. -/
  full : rows.IsChain fun row next => fits (row ++ ' ' :: firstWord next) = false

/-- What is no longer than a row that fits does fit. -/
def Shortens (fits : List Char → Bool) : Prop :=
  ∀ ⦃short long : List Char⦄, short.length ≤ long.length → fits long = true → fits short = true

/-! ## Rows in their paragraph -/

/-- One more space in front is dropped as well. -/
theorem Spaced.space {paragraph : List Char} {rows : List (List Char)} (h : Spaced paragraph rows) :
    Spaced (' ' :: paragraph) rows := by
  cases h with
  | @last before _ _ hbefore hbehind =>
    exact @last (' ' :: before) _ _ (List.forall_mem_cons.2 ⟨rfl, hbefore⟩) hbehind
  | @row before _ _ _ hbefore hrest =>
    exact @row (' ' :: before) _ _ _ (List.forall_mem_cons.2 ⟨rfl, hbefore⟩) hrest

/-- Words behind the row that is begun, with a space before each. -/
theorem spaced_wrapWords (fits : List Char → Bool) (row : List Char) (words : List (List Char)) :
    Spaced (row ++ words.flatMap (' ' :: ·)) (wrapWords fits row words) := by
  have hnone : ∀ c ∈ ([] : List Char), c = ' ' := List.forall_mem_nil _
  induction words generalizing row with
  | nil => exact .last hnone hnone
  | cons word words ih =>
    have hnext := ih word
    rw [wrapWords, List.flatMap_cons, List.cons_append]
    by_cases hrow : row = []
    · -- A space in front of the first word that is not empty is dropped.
      subst hrow
      simpa [extendRow] using hnext.space
    · have hlonger := ih (row ++ ' ' :: word)
      rw [List.append_assoc, List.cons_append] at hlonger
      rw [extendRow, List.isEmpty_eq_false_iff.2 hrow, if_neg Bool.false_ne_true,
        if_neg Bool.false_ne_true]
      split
      · exact hlonger
      · exact .row hnone hnext

theorem spaced_wrapParagraph (fits : List Char → Bool) (paragraph : List Char) :
    Spaced paragraph (wrapParagraph fits paragraph) := by
  obtain ⟨first, others, hsplit⟩ := List.exists_cons_of_ne_nil (splitAt_ne_nil ' ' paragraph)
  have hspaced := spaced_wrapWords fits first others
  rwa [wrapParagraph_eq fits hsplit, ← joinAt_splitAt ' ' paragraph, hsplit, joinAt_eq_flatMap]

/-- Without their spaces the rows are the paragraph. -/
theorem Spaced.letters {paragraph : List Char} {rows : List (List Char)}
    (h : Spaced paragraph rows) :
    rows.flatten.filter (· ≠ ' ') = paragraph.filter (· ≠ ' ') := by
  have hspaces {spaces : List Char} (h : ∀ c ∈ spaces, c = ' ') :
      spaces.filter (· ≠ ' ') = [] := by
    rw [List.filter_eq_nil_iff]
    simpa using h
  induction h with
  | last hbefore hbehind =>
    rw [List.flatten_singleton, List.filter_append, List.filter_append, hspaces hbefore,
      hspaces hbehind, List.nil_append, List.append_nil]
  | row hbefore _ ih =>
    rw [List.flatten_cons, List.filter_append, List.filter_append, List.filter_append, ih,
      hspaces hbefore, List.nil_append, List.filter_cons_of_neg (by simp)]

/-- So it is for one paragraph after the other. -/
theorem letters_of_spaced {paragraphs : List (List Char)} {rows : List (List (List Char))}
    (h : List.Forall₂ Spaced paragraphs rows) :
    rows.flatten.flatten.filter (· ≠ ' ') = paragraphs.flatten.filter (· ≠ ' ') := by
  induction h with
  | nil => rfl
  | cons h _ ih =>
    rw [List.flatten_cons, List.flatten_append, List.filter_append, h.letters, ih,
      List.flatten_cons, List.filter_append]

/-! ## Words on rows -/

section
variable {fits : List Char → Bool} {row : List Char} {words : List (List Char)}

/-- A row is filled up only as far as it fits. -/
theorem fits_wrapWords (hrow : fits row = true ∨ ' ' ∉ row) (hwords : ∀ word ∈ words, ' ' ∉ word) :
    ∀ r ∈ wrapWords fits row words, fits r = true ∨ ' ' ∉ r := by
  induction words generalizing row with
  | nil => simpa [wrapWords] using hrow
  | cons word words ih =>
    obtain ⟨hword, hwords⟩ := List.forall_mem_cons.1 hwords
    rw [wrapWords]
    split
    · next hfits => exact ih (.inl hfits) hwords
    · split
      · exact ih (.inr hword) hwords
      · exact List.forall_mem_cons.2 ⟨hrow, ih (.inr hword) hwords⟩

/-- What a row begins with is not taken off it again. -/
theorem wrapWords_eq_cons (fits : List Char → Bool) (row : List Char) (words : List (List Char)) :
    ∃ first below, wrapWords fits row words = first :: below ∧ row <+: first := by
  induction words generalizing row with
  | nil => exact ⟨row, [], rfl, List.prefix_rfl⟩
  | cons word words ih =>
    rw [wrapWords]
    split
    · obtain ⟨first, below, hrows, hfirst⟩ := ih (extendRow row word)
      refine ⟨first, below, hrows, .trans ?_ hfirst⟩
      rw [extendRow]
      split
      · next hrow => simp [List.isEmpty_iff.1 hrow]
      · exact List.prefix_append _ _
    · split
      · next hrow =>
        obtain ⟨first, below, hrows, -⟩ := ih word
        exact ⟨first, below, hrows, by simp [List.isEmpty_iff.1 hrow]⟩
      · exact ⟨row, _, rfl, List.prefix_rfl⟩

/-- A word at the beginning of a row is in its first word. -/
theorem length_le_firstWord {word first : List Char} (hword : ' ' ∉ word) (h : word <+: first) :
    word.length ≤ (firstWord first).length := by
  obtain ⟨rest, rfl⟩ := h
  have hall : ∀ c ∈ word, (decide (c ≠ ' ')) = true := by
    intro c hc
    rw [decide_eq_true_eq]
    exact fun he => hword (he ▸ hc)
  rw [firstWord, List.takeWhile_append_of_pos hall, List.length_append]
  exact Nat.le_add_right _ _

/-- A row is ended only where the next word does not fit on it. -/
theorem full_wrapWords (hfits : Shortens fits) (hwords : ∀ word ∈ words, ' ' ∉ word) :
    (wrapWords fits row words).IsChain fun row next =>
      fits (row ++ ' ' :: firstWord next) = false := by
  induction words generalizing row with
  | nil => exact .singleton _
  | cons word words ih =>
    obtain ⟨hword, hwords⟩ := List.forall_mem_cons.1 hwords
    rw [wrapWords]
    split
    · exact ih hwords
    · next hover =>
      split
      · exact ih hwords
      · next hrow =>
        obtain ⟨first, below, hrows, hfirst⟩ := wrapWords_eq_cons fits word words
        -- The next row begins with the word that did not fit, or with spaces dropped after it.
        have hlength := length_le_firstWord hword hfirst
        have htoo : fits (row ++ ' ' :: firstWord first) = false := by
          rw [extendRow, if_neg hrow] at hover
          rw [← Bool.not_eq_true]
          intro hlong
          exact hover (hfits (by simpa using hlength) hlong)
        have hbelow := @ih word hwords
        rw [hrows] at hbelow ⊢
        exact .cons_cons htoo hbelow

end

/-! ## Paragraphs and texts -/

/-- The rows of a paragraph are what they should be. -/
theorem wrapped_wrapParagraph {fits : List Char → Bool} (hfits : Shortens fits)
    (paragraph : List Char) : Wrapped fits paragraph (wrapParagraph fits paragraph) := by
  have hwords : ∀ word ∈ splitAt ' ' paragraph, ' ' ∉ word := fun _ => not_mem_of_mem_splitAt
  refine ⟨?_, fits_wrapWords (.inr List.not_mem_nil) hwords,
    spaced_wrapParagraph fits paragraph, full_wrapWords hfits hwords⟩
  obtain ⟨first, below, hrows, -⟩ := wrapWords_eq_cons fits [] (splitAt ' ' paragraph)
  rw [wrapParagraph, hrows]
  exact List.cons_ne_nil _ _

/-- The pieces of a text hold all of it but the separators. -/
theorem flatten_splitAt (separator : Char) (s : List Char) :
    (splitAt separator s).flatten = s.filter (· ≠ separator) := by
  induction s with
  | nil => rfl
  | cons c s ih =>
    rw [splitAt]
    split
    · next hc => simp [hc, ih]
    · next hc =>
      cases hs : splitAt separator s with
      | nil => exact absurd hs (splitAt_ne_nil _ _)
      | cons piece pieces =>
        rw [hs, List.flatten_cons] at ih
        simpa [hc] using ih

/-- The greater of two integers is at most a number only if the other one is. -/
theorem le_limit_of_le {a b : Int} {limit : Number} (h : a ≤ b)
    (hb : Number.le (.int b) limit = true) : Number.le (.int a) limit = true := by
  cases limit with
  | int n =>
    simp only [Number.le, decide_eq_true_eq] at hb ⊢
    omega
  | real x =>
    simp only [Number.le] at hb ⊢
    split at hb
    · simp only [decide_eq_true_eq] at hb ⊢
      omega
    · exact hb

/-- **Wrapping loses nothing and is greedy.** For characters of any width and any limit, a text is
wrapped paragraph by paragraph, each into one row at least. A row fits unless it is a single word;
the rows lie in their paragraph one behind the other with spaces only between them, so that all
characters but spaces and line feeds are kept in their order; and no row could have taken the first
word of the row below it. -/
theorem wrapping_is_lossless_and_greedy (charWidth : Nat) (limit : Number) (text : String) :
    ∃ paragraphs : List (List (List Char)),
      wrapValue (.int charWidth) (.ofNumber limit) (.str text) =
        .ok (paragraphs.flatten.map String.ofList) ∧
      List.Forall₂
        (Wrapped fun row => Number.le (.int (charWidth * row.length)) limit)
        (splitAt '\n' text.toList) paragraphs ∧
      paragraphs.flatten.flatten.filter (· ≠ ' ') =
        text.toList.filter (fun c => c ≠ ' ' ∧ c ≠ '\n') := by
  have hlimit : (Json.ofNumber limit).number = .ok limit := by cases limit <;> rfl
  have hfits : Shortens fun row => fitsWithin (.int charWidth) limit row.length := by
    intro short long hlength hlong
    have hwidth : (charWidth : Int) * short.length ≤ charWidth * long.length := by
      exact_mod_cast Nat.mul_le_mul_left charWidth hlength
    exact le_limit_of_le hwidth hlong
  have hwrapped : List.Forall₂ (Wrapped fun row => fitsWithin (.int charWidth) limit row.length)
      (splitAt '\n' text.toList) ((splitAt '\n' text.toList).map
        (wrapParagraph fun row => fitsWithin (.int charWidth) limit row.length)) := by
    rw [List.forall₂_map_right_iff, List.forall₂_same]
    exact fun paragraph _ => wrapped_wrapParagraph hfits paragraph
  refine ⟨_, ?_, hwrapped, ?_⟩
  · rw [wrapValue, hlimit, ← List.flatMap_def]
    rfl
  · rw [letters_of_spaced (hwrapped.imp fun _ _ h => h.spaced), flatten_splitAt,
      List.filter_filter]
    congr 1
    funext c
    simp

end VisualNovel.Text
