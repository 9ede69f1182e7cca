import Mathlib.Data.List.Basic
import Mathlib.Data.List.Induction
import Mathlib.Data.List.TakeWhile
import VisualNovel.Text.Blank
import VisualNovel.Text.Split
import VisualNovel.Text.WordChar
/-!
# Trimmed texts, names and lines

A text is trimmed exactly if it neither starts nor ends with a blank (`trim_eq_self_iff`). A word
character is no blank (`isBlank_of_isWordChar`), so a name that stands in front of something else is
read to its end and no further. Lines that are joined are split into the same lines
(`splitAt_intercalate`).
-/
namespace VisualNovel.Text

/-! ## Blanks and word characters -/

/-- The blanks above U+007F, in ranges of code points. -/
def blankRanges : List (Nat × Nat) :=
  [(0x85, 0x85), (0xa0, 0xa0), (0x1680, 0x1680), (0x2000, 0x200a), (0x2028, 0x2029),
   (0x202f, 0x202f), (0x205f, 0x205f), (0x3000, 0x3000)]

theorem exists_blankRange {c : Char} (h : isBlank c = true) (hc : ¬c.toNat < 0x80) :
    ∃ b ∈ blankRanges, b.1 ≤ c.toNat ∧ c.toNat ≤ b.2 := by
  simp only [isBlank, Bool.or_eq_true, Bool.and_eq_true, decide_eq_true_eq, beq_iff_eq] at h
  simp only [blankRanges, List.exists_mem_cons_iff, List.not_mem_nil, false_and, exists_false]
  omega

/-- A word character is no blank. -/
theorem isBlank_of_isWordChar {c : Char} (h : isWordChar c = true) : isBlank c = false := by
  rw [← Bool.not_eq_true]
  intro hblank
  have hlow : ∀ n < 0x80, ¬((isBlank (.ofNat n) && isWordChar (.ofNat n)) = true) := by
    decide +kernel
  -- Ranges of word characters and of blanks do not meet.
  have hapart : (wordRanges.all fun r => blankRanges.all fun b => r.2 < b.1 || b.2 < r.1) =
      true := by decide +kernel
  by_cases hc : c.toNat < 0x80
  · have hboth := hlow c.toNat hc
    rw [Char.ofNat_toNat, hblank, h] at hboth
    exact hboth rfl
  · obtain ⟨b, hb, hin⟩ := exists_blankRange hblank hc
    rw [isWordChar, if_neg hc] at h
    obtain ⟨r, hr, hword⟩ := List.any_eq_true.1 h
    have hmeet := List.all_eq_true.1 (List.all_eq_true.1 hapart r hr) b hb
    simp only [Bool.and_eq_true, decide_eq_true_eq, Bool.or_eq_true] at hword hmeet
    omega

theorem isWordChar_of_isBlank {c : Char} (h : isBlank c = true) : isWordChar c = false := by
  rw [← Bool.not_eq_true]
  intro hword
  rw [isBlank_of_isWordChar hword] at h
  cases h

/-! ## Trimmed texts -/

/-- A text that neither starts nor ends with a blank. -/
structure Trimmed (s : List Char) : Prop where
  head : ∀ c ∈ s.head?, isBlank c = false
  last : ∀ c ∈ s.getLast?, isBlank c = false

theorem trim_eq_self_iff {s : List Char} : trim s = s ↔ Trimmed s := by
  constructor
  · intro h
    rw [← h]
    exact ⟨trimEnd_head (trimStart_head s), trimEnd_last _⟩
  · intro h
    rw [trim, trimStart_eq_self h.head, trimEnd_eq_self h.last]

/-- Anything may stand between the ends of a trimmed text. -/
theorem Trimmed.between {c : Char} (hc : isBlank c = false) (s : List Char) {t : List Char}
    (ht : Trimmed t) (hne : t ≠ []) : Trimmed (c :: (s ++ t)) := by
  constructor
  · rintro d ⟨⟩
    exact hc
  · rw [← List.cons_append, List.getLast?_append_of_ne_nil _ hne]
    exact ht.last

theorem trimStart_cons {c : Char} (hc : isBlank c = true) (s : List Char) :
    trimStart (c :: s) = trimStart s := List.dropWhile_cons_of_pos hc

theorem trimEnd_append_blank {s : List Char} {c : Char} (hc : isBlank c = true) :
    trimEnd (s ++ [c]) = trimEnd s := by
  induction s with
  | nil => simp [trimEnd, hc]
  | cons d s ih =>
    rw [List.cons_append, trimEnd, ih]
    rfl

/-- A trimmed text between two blanks. -/
theorem trim_between {s : List Char} (h : Trimmed s) (hne : s ≠ []) {c d : Char}
    (hc : isBlank c = true) (hd : isBlank d = true) : trim (c :: (s ++ [d])) = s := by
  have hstart : trimStart (s ++ [d]) = s ++ [d] := by
    apply trimStart_eq_self
    cases s with
    | nil => exact absurd rfl hne
    | cons e s => exact h.head
  rw [trim, trimStart_cons hc, hstart, trimEnd_append_blank hd, trimEnd_eq_self h.last]

/-! ## What is trimmed off -/

/-- Blanks only. -/
def Blank (s : List Char) : Prop := ∀ c ∈ s, isBlank c = true

theorem Blank.trimStart_append {s : List Char} (h : Blank s) (t : List Char) :
    trimStart (s ++ t) = trimStart t := List.dropWhile_append_of_pos h

theorem Blank.trimEnd_append {t : List Char} (h : Blank t) (s : List Char) :
    trimEnd (s ++ t) = trimEnd s := by
  induction t using List.reverseRecOn with
  | nil => rw [List.append_nil]
  | append_singleton t c ih =>
    obtain ⟨ht, hc⟩ := List.forall_mem_append.1 h
    rw [← List.append_assoc, trimEnd_append_blank (hc c List.mem_cons_self), ih ht]

/-- Blanks at the ends of a text make no difference to what is left of it. -/
theorem trim_append_blank {lead trail : List Char} (hlead : Blank lead) (htrail : Blank trail)
    (s : List Char) : trim (lead ++ s ++ trail) = trim s := by
  rw [trim, trim, List.append_assoc, hlead.trimStart_append]
  by_cases hs : Blank s
  · have hnil : trimStart s = [] := List.dropWhile_eq_nil_iff.2 hs
    have hrest : trimEnd (trimStart trail) = [] :=
      trimEnd_eq_nil_iff.2 fun c hc => htrail c (List.dropWhile_subset _ hc)
    rw [hs.trimStart_append, hnil, hrest]
    rfl
  · have hstop : s.dropWhile isBlank ≠ [] := by simpa [Blank] using hs
    have hdrop : trimStart (s ++ trail) = trimStart s ++ trail := by
      simp only [trimStart, List.dropWhile_append]
      rw [if_neg (by simpa using hstop)]
    rw [hdrop, htrail.trimEnd_append]

theorem exists_trimStart (s : List Char) : ∃ lead, Blank lead ∧ s = lead ++ trimStart s :=
  ⟨s.takeWhile isBlank, fun _ => List.mem_takeWhile_imp, List.takeWhile_append_dropWhile.symm⟩

theorem exists_trimEnd (s : List Char) : ∃ trail, Blank trail ∧ s = trimEnd s ++ trail := by
  induction s with
  | nil => exact ⟨[], List.forall_mem_nil _, rfl⟩
  | cons c s ih =>
    obtain ⟨trail, htrail, hs⟩ := ih
    by_cases hnil : trimEnd s = []
    · rw [hnil, List.nil_append] at hs
      subst hs
      simp only [trimEnd, hnil]
      split
      · next hc => exact ⟨c :: s, List.forall_mem_cons.2 ⟨hc, htrail⟩, rfl⟩
      · exact ⟨s, htrail, rfl⟩
    · rw [trimEnd_cons_of_ne hnil]
      exact ⟨trail, htrail, congrArg (c :: ·) hs⟩

/-- A text is what is left of it when it is trimmed, between blanks. -/
theorem exists_trim (s : List Char) :
    ∃ lead trail, Blank lead ∧ Blank trail ∧ s = lead ++ trim s ++ trail := by
  obtain ⟨lead, hlead, hs⟩ := exists_trimStart s
  obtain ⟨trail, htrail, hrest⟩ := exists_trimEnd (trimStart s)
  refine ⟨lead, trail, hlead, htrail, ?_⟩
  rw [List.append_assoc, trim, ← hrest, ← hs]

/-- What is trimmed holds nothing new. -/
theorem mem_of_mem_trim {s : List Char} {c : Char} (h : c ∈ trim s) : c ∈ s := by
  obtain ⟨lead, trail, -, -, hs⟩ := exists_trim s
  rw [hs]
  exact List.mem_append_left _ (List.mem_append_right _ h)

theorem trimmed_trim (s : List Char) : Trimmed (trim s) := trim_eq_self_iff.1 (trim_idem s)

/-- Blanks come to an end where something else begins. -/
theorem Blank.length_le {s t rest more : List Char} {c : Char} (hs : Blank s)
    (hc : isBlank c = false) (h : s ++ rest = t ++ c :: more) : s.length ≤ t.length := by
  by_contra hlonger
  rw [Nat.not_le] at hlonger
  have hmem : c ∈ s := by
    have hget := congrArg (·[t.length]?) h
    simp only [List.getElem?_append_left hlonger, List.getElem?_append_right (Nat.le_refl _),
      Nat.sub_self, List.getElem?_cons_zero] at hget
    exact List.mem_of_getElem? hget
  rw [hs c hmem] at hc
  cases hc

/-- And so it is from the end. -/
theorem Blank.length_le_back {s t rest more : List Char} {c : Char} (hs : Blank s)
    (hc : isBlank c = false) (h : rest ++ s = more ++ [c] ++ t) : s.length ≤ t.length := by
  have hback := congrArg List.reverse h
  simp only [List.reverse_append, List.reverse_cons, List.reverse_nil, List.nil_append,
    List.singleton_append] at hback
  have hreverse : Blank s.reverse := fun d hd => hs d (List.mem_reverse.1 hd)
  simpa using hreverse.length_le hc hback

/-! ## Names -/

/-- Word characters, at least one. -/
structure IsName (s : List Char) : Prop where
  ne : s ≠ []
  word : ∀ c ∈ s, isWordChar c = true

namespace IsName
variable {s : List Char}

theorem trimmed (h : IsName s) : Trimmed s where
  head c hc := isBlank_of_isWordChar (h.word c (List.mem_of_mem_head? hc))
  last c hc := isBlank_of_isWordChar (h.word c (List.mem_of_mem_getLast? hc))

theorem reverse (h : IsName s) : IsName s.reverse where
  ne := by simpa using h.ne
  word c hc := h.word c (by simpa using hc)

/-- In front of a name nothing is trimmed. -/
theorem trimStart (h : IsName s) (rest : List Char) : trimStart (s ++ rest) = s ++ rest := by
  apply trimStart_eq_self
  cases s with
  | nil => exact absurd rfl h.ne
  | cons c s => exact h.trimmed.head

theorem takeWhile (h : IsName s) {rest : List Char}
    (hrest : ∀ c ∈ rest.head?, isWordChar c = false) :
    (s ++ rest).takeWhile isWordChar = s := by
  rw [List.takeWhile_append_of_pos h.word]
  cases rest with
  | nil => simp
  | cons c rest => simp [hrest c rfl]

theorem dropWhile (h : IsName s) {rest : List Char}
    (hrest : ∀ c ∈ rest.head?, isWordChar c = false) :
    (s ++ rest).dropWhile isWordChar = rest := by
  rw [List.dropWhile_append_of_pos h.word]
  cases rest with
  | nil => rfl
  | cons c rest => simp [hrest c rfl]

/-- There is no line break in a name. -/
theorem unbroken (h : IsName s) : '\n' ∉ s := by
  intro hmem
  have hword := h.word _ hmem
  revert hword
  decide

end IsName

/-! ## Lines -/

theorem splitAt_of_not_mem {separator : Char} {s : List Char} (h : separator ∉ s) :
    splitAt separator s = [s] := by
  induction s with
  | nil => rfl
  | cons c s ih =>
    rw [List.mem_cons, not_or] at h
    rw [splitAt, if_neg (Ne.symm h.1), ih h.2]

/-- What stands in front of a separator is split, and what stands behind it. -/
theorem splitAt_append (separator : Char) (s rest : List Char) :
    splitAt separator (s ++ separator :: rest) = splitAt separator s ++ splitAt separator rest := by
  induction s with
  | nil => simp [splitAt]
  | cons c s ih =>
    rw [List.cons_append, splitAt, splitAt]
    by_cases hc : c = separator
    · rw [if_pos hc, if_pos hc, ih, List.cons_append]
    · rw [if_neg hc, if_neg hc, ih]
      cases hs : splitAt separator s with
      | nil => exact absurd hs (splitAt_ne_nil _ _)
      | cons piece pieces => rfl

/-- Lines that are joined are split into the same lines. -/
theorem splitAt_intercalate {separator : Char} {lines : List (List Char)} (hne : lines ≠ [])
    (h : ∀ line ∈ lines, separator ∉ line) :
    splitAt separator ([separator].intercalate lines) = lines := by
  induction lines with
  | nil => exact absurd rfl hne
  | cons line lines ih =>
    have hline := splitAt_of_not_mem (h line List.mem_cons_self)
    cases lines with
    | nil => simpa using hline
    | cons next lines =>
      have hlines := ih (List.cons_ne_nil _ _) fun l hl => h l (List.mem_cons_of_mem _ hl)
      rw [List.intercalate_cons_cons, List.append_assoc, List.singleton_append, splitAt_append,
        hline, hlines, List.singleton_append]

end VisualNovel.Text
