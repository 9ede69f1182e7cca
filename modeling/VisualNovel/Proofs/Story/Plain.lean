import VisualNovel.Story.Player
/-!
# Plain play

A plain player reads a story without a screen: it reads on as long as there is a line, and where
there is none it takes the next of the choices it was told in advance. What it lives through is a
list of beats.

Results:
* `play_append`: to play on from where a play has come to is to play longer.
* `canContinue_iff`: there is a line to read exactly if reading succeeds.
-/
namespace VisualNovel.Story

/-- One thing a reader lives through. -/
inductive Beat where
  | line (text : String) (tags : List String)
  | choice (index : Int)
  deriving DecidableEq, Repr

/-- The number of the choice, if a beat is one. -/
def Beat.pick? : Beat → Option Int
  | line _ _ => none
  | choice index => some index

namespace Player

/-- The next beat, the choices that are left to take, and where it leads to. -/
def beat? (picks : List Int) (p : Player) : Option (Beat × List Int × Player) :=
  if p.canContinue then
    p.continue?.toOption.map fun (line, p, _) => (.line line.text line.tags, picks, p)
  else
    match picks with
    | [] => none
    | i :: picks => (p.choose? i).toOption.map fun (p, _) => (.choice i, picks, p)

/-- The first `n` beats, or all if there are fewer, and where they lead to. -/
def play : (n : Nat) → (picks : List Int) → Player → List Beat × Player
  | 0, _, p => ([], p)
  | n + 1, picks, p =>
    match p.beat? picks with
    | none => ([], p)
    | some (b, picks, p) => (b :: (play n picks p).1, (play n picks p).2)

/-! ## Reading -/

theorem canContinue_iff {p : Player} :
    p.canContinue = true ↔ ∃ line p' log, p.continue? = .ok (line, p', log) := by
  unfold canContinue continue?
  cases p.place with
  | none => simp
  | some place =>
    by_cases h : place.read < place.node.lines.length
    · simp only [Option.any_some, Place.hasLine, h, decide_true, Option.bind_some,
        List.getElem?_eq_getElem, Option.map_some, true_iff]
      exact ⟨_, _, _, rfl⟩
    · simp [Place.hasLine, h]

/-- There is nothing to choose as long as there is a line to read. -/
theorem canContinue_of_choices {p : Player} (h : p.choices ≠ []) : p.canContinue = false := by
  unfold choices branches at h
  unfold canContinue
  cases hp : p.place with
  | none => rfl
  | some place =>
    cases hl : place.hasLine with
    | false => simp [hl]
    | true =>
      rw [hp] at h
      simp [hl] at h

/-- A choice on offer can be taken. -/
theorem choose?_of_mem {p : Player} {c : Choice} (h : c ∈ p.choices) :
    ∃ p' log, p.choose? c.index = .ok (p', log) := by
  unfold choices at h
  obtain ⟨i, hi, rfl⟩ := List.mem_mapIdx.1 h
  have htake : p.choose? i = .ok (goTo { p with tags := [] } p.branches[i].next) := by
    simp [choose?, hi]
  exact ⟨_, _, htake⟩

/-! ## Playing on -/

theorem beat?_read {p p' : Player} {line : Line} {log : List Log.Entry}
    (h : p.continue? = .ok (line, p', log)) (picks : List Int) :
    p.beat? picks = some (.line line.text line.tags, picks, p') := by
  unfold beat?
  rw [if_pos (canContinue_iff.2 ⟨line, p', log, h⟩), h]
  rfl

theorem beat?_pick {p p' : Player} {i : Int} {log : List Log.Entry}
    (hw : p.canContinue = false) (h : p.choose? i = .ok (p', log)) (picks : List Int) :
    p.beat? (i :: picks) = some (.choice i, picks, p') := by
  unfold beat?
  rw [if_neg (by rw [hw]; exact Bool.false_ne_true)]
  simp only [h]
  rfl

/-- More choices told in advance than are needed make no difference to the beats. -/
theorem beat?_append {p p' : Player} {picks rest : List Int} {b : Beat}
    (h : p.beat? picks = some (b, rest, p')) (more : List Int) :
    p.beat? (picks ++ more) = some (b, rest ++ more, p') ∧ picks = b.pick?.toList ++ rest := by
  unfold beat? at h ⊢
  split at h
  · next hc =>
    rw [if_pos hc]
    match hp : p.continue? with
    | .error e =>
      rw [hp] at h
      cases h
    | .ok (line, q, log) =>
      rw [hp] at h
      cases h
      exact ⟨rfl, rfl⟩
  · next hc =>
    rw [if_neg hc]
    match picks with
    | [] => cases h
    | i :: picks =>
      match hp : p.choose? i with
      | .error e =>
        simp only [hp] at h
        cases h
      | .ok (q, log) =>
        simp only [hp] at h
        cases h
        simp only [List.cons_append, hp]
        exact ⟨rfl, rfl⟩

/-- A play that used up its choices goes on with one more beat. -/
theorem play_append {p q q' : Player} {bs : List Beat} {b : Beat}
    (h : play bs.length (bs.filterMap Beat.pick?) p = (bs, q))
    (hb : q.beat? b.pick?.toList = some (b, [], q')) :
    play (bs ++ [b]).length ((bs ++ [b]).filterMap Beat.pick?) p = (bs ++ [b], q') := by
  induction bs generalizing p with
  | nil =>
    cases h
    have hpick : [b].filterMap Beat.pick? = b.pick?.toList := by cases b <;> rfl
    show play 1 ([b].filterMap Beat.pick?) q = ([b], q')
    rw [hpick]
    simp [play, hb]
  | cons c bs ih =>
    have hlen : (c :: bs).length = bs.length + 1 := rfl
    rw [hlen, play] at h
    match hc : p.beat? ((c :: bs).filterMap Beat.pick?) with
    | none =>
      rw [hc] at h
      cases h
    | some (c', rest, p') =>
      rw [hc] at h
      simp only [Prod.mk.injEq, List.cons.injEq] at h
      obtain ⟨⟨rfl, hbs⟩, hq⟩ := h
      obtain ⟨hmore, hsplit⟩ := beat?_append hc b.pick?.toList
      have hcons : (c' :: bs).filterMap Beat.pick? =
          c'.pick?.toList ++ bs.filterMap Beat.pick? := by
        cases c' <;> rfl
      rw [hcons] at hsplit
      have hrest : rest = bs.filterMap Beat.pick? := (List.append_cancel_left hsplit).symm
      subst hrest
      have hih := ih (Prod.ext hbs hq)
      have htail : (bs ++ [b]).filterMap Beat.pick? =
          bs.filterMap Beat.pick? ++ b.pick?.toList := by
        rw [List.filterMap_append]
        cases b <;> rfl
      have hall : (c' :: bs ++ [b]).filterMap Beat.pick? =
          (c' :: bs).filterMap Beat.pick? ++ b.pick?.toList := by
        rw [List.filterMap_append]
        cases b <;> rfl
      rw [hall, List.cons_append, List.length_cons, play, hmore, ← htail]
      simp only [hih]

end Player
end VisualNovel.Story
