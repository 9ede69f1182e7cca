/-!
# Blank characters and trimming

A blank is a character of Unicode's white space, or one of the four information separators
U+001C to U+001F. Trimming drops the blanks at both ends and nothing else.

Results:
* `trimStart_eq_self`, `trimEnd_eq_self`: trimming changes only a text that starts or ends blank.
* `trim_idem`: a trimmed text stays as it is.
-/
namespace VisualNovel.Text

/-- White space, in the sense of every rule of this library that skips or trims it. -/
def isBlank (c : Char) : Bool :=
  let n := c.toNat
  (0x9 ≤ n && n ≤ 0xd) || (0x1c ≤ n && n ≤ 0x20) || n == 0x85 || n == 0xa0 || n == 0x1680 ||
    (0x2000 ≤ n && n ≤ 0x200a) || n == 0x2028 || n == 0x2029 || n == 0x202f || n == 0x205f ||
    n == 0x3000

/-- Drops the leading blanks. -/
def trimStart (s : List Char) : List Char := s.dropWhile isBlank

/-- Drops the trailing blanks. -/
def trimEnd : List Char → List Char
  | [] => []
  | c :: s =>
    match trimEnd s with
    | [] => if isBlank c then [] else [c]
    | t => c :: t

/-- Drops the blanks at both ends. -/
def trim (s : List Char) : List Char := trimEnd (trimStart s)

/-- A string without the blanks at its ends. -/
def trimString (s : String) : String := .ofList (trim s.toList)

theorem trimStart_eq_self {s : List Char} (h : ∀ c ∈ s.head?, isBlank c = false) :
    trimStart s = s := by
  cases s with
  | nil => rfl
  | cons c s => simp [trimStart, List.dropWhile, h c (by simp)]

theorem trimEnd_eq_nil_iff {s : List Char} : trimEnd s = [] ↔ ∀ c ∈ s, isBlank c := by
  induction s with
  | nil => simp [trimEnd]
  | cons c s ih =>
    simp only [trimEnd, List.mem_cons, forall_eq_or_imp]
    cases h : trimEnd s with
    | nil =>
      have := ih.1 h
      by_cases hc : isBlank c <;> simp [hc]
      exact this
    | cons d t =>
      simp only [h, reduceCtorEq, false_iff] at ih
      simp [ih]

theorem trimEnd_cons_of_ne {c : Char} {s : List Char} (h : trimEnd s ≠ []) :
    trimEnd (c :: s) = c :: trimEnd s := by
  simp only [trimEnd]

theorem trimEnd_eq_self {s : List Char} (h : ∀ c ∈ s.getLast?, isBlank c = false) :
    trimEnd s = s := by
  induction s with
  | nil => rfl
  | cons c s ih =>
    cases s with
    | nil => simp [trimEnd, h c (by simp)]
    | cons d t =>
      have hs := ih (fun x hx => h x (by simpa using hx))
      rw [trimEnd_cons_of_ne (by simp [hs]), hs]

theorem trimEnd_last (s : List Char) : ∀ c ∈ (trimEnd s).getLast?, isBlank c = false := by
  induction s with
  | nil => simp [trimEnd]
  | cons c s ih =>
    simp only [trimEnd]
    cases h : trimEnd s with
    | nil => by_cases hc : isBlank c <;> simp [hc]
    | cons d t => rw [h] at ih; simpa using ih

theorem trimEnd_idem (s : List Char) : trimEnd (trimEnd s) = trimEnd s :=
  trimEnd_eq_self (trimEnd_last s)

theorem trimStart_head (s : List Char) : ∀ c ∈ (trimStart s).head?, isBlank c = false := by
  induction s with
  | nil => simp [trimStart]
  | cons c s ih =>
    by_cases hc : isBlank c
    · simpa [trimStart, List.dropWhile, hc] using ih
    · simp [trimStart, List.dropWhile, hc]

theorem trimEnd_head {s : List Char} (h : ∀ c ∈ s.head?, isBlank c = false) :
    ∀ c ∈ (trimEnd s).head?, isBlank c = false := by
  cases s with
  | nil => simp [trimEnd]
  | cons c s =>
    have hc : isBlank c = false := h c (by simp)
    simp only [trimEnd]
    cases trimEnd s <;> simp [hc]

/-- A trimmed text stays as it is. -/
theorem trim_idem (s : List Char) : trim (trim s) = trim s := by
  unfold trim
  rw [trimStart_eq_self (trimEnd_head (trimStart_head s)), trimEnd_idem]

end VisualNovel.Text
