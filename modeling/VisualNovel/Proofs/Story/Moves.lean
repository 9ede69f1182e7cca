import VisualNovel.Proofs.Story.Walker
/-!
# Moves that are refused

A player that stands in its story has a line to read, or something to choose, or is at the end
(`Stands.one_of_three`). Reading is refused exactly without a line, a choice exactly if there is
none of its number, and what is refused leaves the player as it was (`Orderly`).
-/
namespace VisualNovel.Story.Player
variable {g : Graph} {p : Player}

theorem line_of_canContinue (h : p.canContinue = true) :
    ∃ q line, p.place = some q ∧ q.node.lines[q.read]? = some line := by
  unfold canContinue at h
  cases hp : p.place with
  | none => simp [hp] at h
  | some q =>
    rw [hp] at h
    exact ⟨q, _, rfl, List.getElem?_eq_getElem (by simpa [Place.hasLine] using h)⟩

theorem move_read_refused (h : p.canContinue = false) :
    p.move .read = (p, .refused .noLine, []) := by
  unfold move continue?
  unfold canContinue at h
  cases hp : p.place with
  | none => rfl
  | some q =>
    have hnone : q.node.lines[q.read]? = none := by
      simpa [hp, Place.hasLine] using h
    simp [hnone]

theorem move_choose_refused {i : Int} (h : ¬(0 ≤ i ∧ i < p.branches.length)) :
    p.move (.choose i) = (p, .refused (.noChoice (.int i) p.branches.length), []) := by
  simp only [move, chooseBy_int, choose?_refused h]

theorem move_choose_taken {k : Nat} {b : Branch} (h : p.branches[k]? = some b) :
    p.move (.choose k) =
      ((goTo { p with tags := [] } b.next).1, .chosen, (goTo { p with tags := [] } b.next).2) := by
  simp [move, chooseBy_int, choose?, h]

theorem move_read_taken (hg : g.Sound) (hs : Stands g p) (h : p.canContinue = true) :
    ∃ text, (p.move .read).2.1 = .line text := by
  obtain ⟨q, line, hq, hline⟩ := line_of_canContinue h
  obtain ⟨a, -, hmove, -⟩ := hs.read hg hq hline
  exact ⟨line.text, by rw [hmove]⟩

theorem length_choices (p : Player) : p.choices.length = p.branches.length := by
  simp [choices]

/-- Where a player stands there is a line to read, or something to choose, or the end. -/
theorem Stands.one_of_three (hs : Stands g p) :
    (p.canContinue = true ∧ p.choices = [] ∧ p.hasEnded = false) ∨
      (p.canContinue = false ∧ p.choices ≠ [] ∧ p.hasEnded = false) ∨
        (p.canContinue = false ∧ p.choices = [] ∧ p.hasEnded = true) := by
  have hnone : p.choices = [] ↔ p.branches = [] := by
    rw [← List.length_eq_zero_iff, length_choices, List.length_eq_zero_iff]
  rw [ne_eq, hnone]
  unfold canContinue branches hasEnded
  cases hp : p.place with
  | none => exact .inr (.inr ⟨rfl, rfl, rfl⟩)
  | some q =>
    cases hline : q.hasLine with
    | true => exact .inl ⟨by simpa using hline, by simp [hline], rfl⟩
    | false =>
      refine .inr (.inl ⟨by simpa using hline, ?_, rfl⟩)
      -- A place where nothing is left to read is held on to for its choices.
      simpa [Place.holds, hline] using (hs.place q hp).2

/-- How a player takes what it is asked for. -/
structure Orderly (p : Player) : Prop where
  /-- There is a line to read, or something to choose, or the end, and only one of these. -/
  oneOfThree : (p.canContinue = true ∧ p.choices = [] ∧ p.hasEnded = false) ∨
    (p.canContinue = false ∧ p.choices ≠ [] ∧ p.hasEnded = false) ∨
      (p.canContinue = false ∧ p.choices = [] ∧ p.hasEnded = true)
  /-- Reading is refused exactly without a line, and for no other reason. -/
  reads : ∀ e, (p.move .read).2.1 = .refused e ↔ p.canContinue = false ∧ e = .noLine
  /-- A choice is refused exactly if there is none of its number, and for no other reason. -/
  chooses : ∀ i e, (p.move (.choose i)).2.1 = .refused e ↔
    ¬(0 ≤ i ∧ i < p.choices.length) ∧ e = .noChoice (.int i) p.choices.length
  /-- What is refused leaves all as it was. -/
  unmoved : ∀ m e, (p.move m).2.1 = .refused e → (p.move m).1 = p

theorem Stands.orderly (hg : g.Sound) (hs : Stands g p) : p.Orderly := by
  have hreads (e : PlayError) :
      (p.move .read).2.1 = .refused e ↔ p.canContinue = false ∧ e = .noLine := by
    cases hcan : p.canContinue with
    | false => simp [move_read_refused hcan, eq_comm]
    | true =>
      obtain ⟨text, htext⟩ := move_read_taken hg hs hcan
      simp [htext]
  have hchooses (i : Int) (e : PlayError) : (p.move (.choose i)).2.1 = .refused e ↔
      ¬(0 ≤ i ∧ i < p.choices.length) ∧ e = .noChoice (.int i) p.choices.length := by
    rw [length_choices]
    by_cases hi : 0 ≤ i ∧ i < p.branches.length
    · obtain ⟨k, rfl⟩ := Int.eq_ofNat_of_zero_le hi.1
      have hk : k < p.branches.length := by omega
      simp [move_choose_taken (List.getElem?_eq_getElem hk), hi]
    · simp [move_choose_refused hi, hi, eq_comm]
  refine ⟨hs.one_of_three, hreads, hchooses, ?_⟩
  intro m e he
  cases m with
  | read => rw [move_read_refused ((hreads e).1 he).1]
  | choose i =>
    obtain ⟨hout, -⟩ := (hchooses i e).1 he
    rw [length_choices] at hout
    rw [move_choose_refused hout]

end VisualNovel.Story.Player
