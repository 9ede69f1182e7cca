import VisualNovel.Proofs.Story.Choices
/-!
# Forms of lines

What a line says is told by its form (`Says`): a header, a line of tags, a choice and a divert each
begin with a mark of their own, so that no line has two of these forms, and a line that has none of
them is dialogue. Reading a line tries one form after the other and comes to just that
(`says_iff`).
-/
namespace VisualNovel.Story.Statement
open Text

/-! ## Names -/

theorem name_of_readName? {s rest : List Char} {id : String} (h : readName? s = some (id, rest)) :
    ∃ name behind, IsName name ∧ Blank behind ∧ id = .ofList name ∧
      s = name ++ (behind ++ rest) := by
  unfold readName? at h
  dsimp only at h
  rw [Option.ite_none_left_eq_some] at h
  obtain ⟨hne, h⟩ := h
  cases h
  obtain ⟨behind, hbehind, hrest⟩ := exists_trimStart (s.dropWhile isWordChar)
  refine ⟨s.takeWhile isWordChar, behind, ⟨by simpa using hne, fun _ => List.mem_takeWhile_imp⟩,
    hbehind, rfl, ?_⟩
  rw [← hrest, List.takeWhile_append_dropWhile]

/-- A name ends where a blank stands, or something else that is not of a name. -/
theorem readName?_of_parts {name behind rest : List Char} (hname : IsName name)
    (hbehind : Blank behind)
    (hrest : ∀ c ∈ rest.head?, isBlank c = false ∧ isWordChar c = false) :
    readName? (name ++ (behind ++ rest)) = some (.ofList name, rest) := by
  have hend : ∀ c ∈ (behind ++ rest).head?, isWordChar c = false := by
    intro c hc
    cases behind with
    | nil => exact (hrest c hc).2
    | cons d behind =>
      obtain rfl : d = c := by simpa using hc
      exact isWordChar_of_isBlank (hbehind d List.mem_cons_self)
  have hstart : trimStart rest = rest := trimStart_eq_self fun c hc => (hrest c hc).1
  have hne : name.isEmpty = false := by simpa using hname.ne
  rw [readName?, hname.takeWhile hend, hname.dropWhile hend, hbehind.trimStart_append, hstart]
  simp [hne]

/-- A name with nothing but blanks behind it. -/
theorem readName?_of_last {name behind : List Char} (hname : IsName name) (hbehind : Blank behind) :
    readName? (name ++ behind) = some (.ofList name, []) := by
  have hread := @readName?_of_parts name behind [] hname hbehind (by simp)
  rwa [List.append_nil] at hread

/-- A divert is an arrow with nothing in front of it. -/
theorem divert?_eq_some_iff {s : List Char} {target : String} :
    divert? s = some target ↔ PointsTo s [] target := by
  constructor
  · intro h
    unfold divert? onlyName? at h
    split at h
    · next rest =>
      split at h
      · next hread =>
        cases h
        obtain ⟨name, behind, hname, hbehind, rfl, hsplit⟩ := name_of_readName? hread
        obtain ⟨gap, hgap, hrest⟩ := exists_trimStart rest
        refine ⟨gap, name, behind, hgap, hname, hbehind, rfl, ?_⟩
        rw [hrest, hsplit]
        simp
      · cases h
    · cases h
  · rintro ⟨gap, name, rest, hgap, hname, hrest, rfl, rfl⟩
    rw [List.nil_append, divert?, onlyName?, List.append_assoc, hgap.trimStart_append,
      hname.trimStart, readName?_of_last hname hrest]

/-! ## Headers -/

/-- A header: two or more equals signs, a name, and any number of equals signs, with blanks behind
each of them. -/
def IsHeader (s : List Char) (id : String) : Prop :=
  ∃ marks gap name behind more rest, 2 ≤ marks.length ∧ (∀ c ∈ marks, c = '=') ∧ Blank gap ∧
    IsName name ∧ Blank behind ∧ (∀ c ∈ more, c = '=') ∧ Blank rest ∧ id = .ofList name ∧
      s = marks ++ (gap ++ (name ++ (behind ++ (more ++ rest))))

section
variable {marks rest : List Char}

theorem takeWhile_marks (hmarks : ∀ c ∈ marks, c = '=') (hrest : ∀ c ∈ rest.head?, c ≠ '=') :
    (marks ++ rest).takeWhile (· = '=') = marks := by
  rw [List.takeWhile_append_of_pos (by simpa using hmarks)]
  cases rest with
  | nil => simp
  | cons c rest => simpa using hrest c rfl

theorem dropWhile_marks (hmarks : ∀ c ∈ marks, c = '=') (hrest : ∀ c ∈ rest.head?, c ≠ '=') :
    (marks ++ rest).dropWhile (· = '=') = rest := by
  rw [List.dropWhile_append_of_pos (by simpa using hmarks)]
  cases rest with
  | nil => rfl
  | cons c rest => simpa using hrest c rfl

end

theorem isHeader_of_header? {s : List Char} {id : String} (h : header? s = some id) :
    IsHeader s id := by
  unfold header? at h
  rw [Option.ite_none_left_eq_some] at h
  obtain ⟨hmarks, h⟩ := h
  split at h
  · next id' tail hread =>
    rw [Option.ite_none_right_eq_some] at h
    obtain ⟨hnone, h⟩ := h
    cases h
    obtain ⟨name, behind, hname, hbehind, rfl, hsplit⟩ := name_of_readName? hread
    obtain ⟨gap, hgap, hrest⟩ := exists_trimStart (s.dropWhile (· = '='))
    obtain ⟨rest, hblank, htail⟩ := exists_trimStart (tail.dropWhile (· = '='))
    rw [List.isEmpty_iff.1 hnone, List.append_nil] at htail
    refine ⟨s.takeWhile (· = '='), gap, name, behind, tail.takeWhile (· = '='), rest, by omega, ?_,
      hgap, hname, hbehind, ?_, hblank, rfl, ?_⟩
    · exact fun c hc => by simpa using List.mem_takeWhile_imp hc
    · exact fun c hc => by simpa using List.mem_takeWhile_imp hc
    · rw [← htail, List.takeWhile_append_dropWhile, ← hsplit, ← hrest,
        List.takeWhile_append_dropWhile]
  · cases h

theorem IsHeader.header? {s : List Char} {id : String} (h : IsHeader s id) :
    header? s = some id := by
  obtain ⟨marks, gap, name, behind, more, rest, hlength, hmarks, hgap, hname, hbehind, hmore, hrest,
    rfl, rfl⟩ := h
  -- Neither a blank nor a name begins with an equals sign.
  have hstart : ∀ c ∈ (gap ++ (name ++ (behind ++ (more ++ rest)))).head?, c ≠ '=' := by
    rintro c hc rfl
    cases gap with
    | nil =>
      obtain ⟨d, name, rfl⟩ := List.exists_cons_of_ne_nil hname.ne
      obtain rfl : d = '=' := by simpa using hc
      exact absurd (hname.word _ List.mem_cons_self) (by decide)
    | cons d gap =>
      obtain rfl : d = '=' := by simpa using hc
      exact absurd (hgap _ List.mem_cons_self) (by decide)
  have hblank : ∀ c ∈ rest.head?, c ≠ '=' := by
    rintro c hc rfl
    exact absurd (hrest _ (List.mem_of_mem_head? hc)) (by decide)
  have hnil : trimStart rest = [] := by
    have happend := hrest.trimStart_append []
    rwa [List.append_nil] at happend
  rw [Statement.header?, takeWhile_marks hmarks hstart, dropWhile_marks hmarks hstart,
    if_neg (by omega), hgap.trimStart_append, hname.trimStart]
  cases more with
  | nil =>
    have hblanks : Blank (behind ++ rest) := List.forall_mem_append.2 ⟨hbehind, hrest⟩
    rw [List.nil_append, readName?_of_last hname hblanks]
    rfl
  | cons c more =>
    have hstop : ∀ d ∈ (c :: more ++ rest).head?, isBlank d = false ∧ isWordChar d = false := by
      intro d hd
      obtain rfl : c = d := by simpa using hd
      rw [hmore c List.mem_cons_self]
      decide
    rw [readName?_of_parts hname hbehind hstop]
    simp only [dropWhile_marks hmore hblank, hnil]
    rfl

theorem IsHeader.head? {s : List Char} {id : String} (h : IsHeader s id) : s.head? = some '=' := by
  obtain ⟨marks, gap, name, behind, more, rest, hlength, hmarks, -, -, -, -, -, -, rfl⟩ := h
  cases marks with
  | nil => simp at hlength
  | cons c marks => rw [hmarks c List.mem_cons_self]; rfl

/-! ## Lines -/

/-- The forms of lines that are not dialogue. -/
inductive Marked (s : List Char) : Statement → Prop
  | nothing : s = [] ∨ ['/', '/'] <+: s → Marked s .nothing
  | node {id} : IsHeader s id → Marked s (.node id)
  | tags : s.head? = some '#' → Marked s (.tags (splitTags s))
  | choice {lead text target} : Preferred s lead text.toList target →
    Marked s (.choice text target)
  | divert {target} : PointsTo s [] target → Marked s (.divert target)

/-- What a trimmed line says. -/
inductive Says (s : List Char) : Statement → Prop
  | marked {said} : Marked s said → Says s said
  | dialogue : (∀ said, ¬Marked s said) →
    Says s (.dialogue (.ofList (trim (s.takeWhile (· ≠ '#'))))
      (splitTags ((s.dropWhile (· ≠ '#')).drop 1)))

/-- A line of one of the forms is read as what it is. -/
theorem Marked.ofTrimmed {s : List Char} {said : Statement} (h : Marked s said) :
    ofTrimmed s = said := by
  cases h with
  | nothing h =>
    rw [Statement.ofTrimmed, if_pos]
    rwa [Bool.or_eq_true, List.isEmpty_iff, List.isPrefixOf_iff_prefix]
  | node h =>
    obtain ⟨rest, rfl⟩ := List.head?_eq_some_iff.1 h.head?
    simp [Statement.ofTrimmed, h.header?]
  | tags h =>
    obtain ⟨rest, rfl⟩ := List.head?_eq_some_iff.1 h
    simp [Statement.ofTrimmed, Statement.header?]
  | choice h => exact ofTrimmed_eq_choice_iff.2 (choice?_eq_some_iff.2 ⟨_, h⟩)
  | divert h =>
    have hdivert := divert?_eq_some_iff.2 h
    obtain ⟨gap, name, rest, -, -, -, -, rfl⟩ := h
    rw [List.nil_append] at hdivert ⊢
    generalize gap ++ name ++ rest = tail at hdivert ⊢
    simp [Statement.ofTrimmed, Statement.header?, choice?, hdivert]

/-- A line of none of the forms is read as dialogue. -/
theorem ofTrimmed_of_unmarked {s : List Char} (h : ∀ said, ¬Marked s said) :
    ofTrimmed s = .dialogue (.ofList (trim (s.takeWhile (· ≠ '#'))))
      (splitTags ((s.dropWhile (· ≠ '#')).drop 1)) := by
  unfold ofTrimmed
  split
  · next hnothing =>
    rw [Bool.or_eq_true, List.isEmpty_iff, List.isPrefixOf_iff_prefix] at hnothing
    exact absurd (.nothing hnothing) (h _)
  split
  · next hheader => exact absurd (.node (isHeader_of_header? hheader)) (h _)
  split
  · next htags => exact absurd (.tags htags) (h _)
  split
  · next hchoice =>
    obtain ⟨lead, hpreferred⟩ := choice?_eq_some_iff.1 hchoice
    exact absurd (.choice hpreferred) (h _)
  split
  · next hdivert => exact absurd (.divert (divert?_eq_some_iff.1 hdivert)) (h _)
  · rfl

/-- A trimmed line is read as what it says. -/
theorem says_iff {s : List Char} {said : Statement} : Says s said ↔ ofTrimmed s = said := by
  constructor
  · rintro (hmarked | hnone)
    · exact hmarked.ofTrimmed
    · exact ofTrimmed_of_unmarked hnone
  · rintro rfl
    by_cases hmarked : ∃ said, Marked s said
    · obtain ⟨said, hsaid⟩ := hmarked
      rw [hsaid.ofTrimmed]
      exact .marked hsaid
    · rw [not_exists] at hmarked
      rw [ofTrimmed_of_unmarked hmarked]
      exact .dialogue hmarked

end VisualNovel.Story.Statement
