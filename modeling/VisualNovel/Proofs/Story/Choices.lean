import VisualNovel.Proofs.Text.Pieces
import VisualNovel.Story.Statement
/-!
# How a choice is taken apart

A choice is a star, blanks, a text, blanks, and an arrow to a name at the end of the line
(`ChoiceParts`). A line may be taken apart like that in several ways, since blanks can be counted to
the text as well. It is read in the way with the most blanks in front of the text, and of these ways
in the one with the shortest text (`Preferred`, `choice?_eq_some_iff`).

So a text that is read begins and ends with no blank, for without it there would be a better way
(`Preferred.trimmed_or_blank`), unless nothing but blanks is there to be the text: then the last of
them is (`Preferred.not_trimmed_iff`).
-/
namespace VisualNovel.Story.Statement
open Text

/-! ## Arrows -/

/-- A text ends with an arrow to a target; in front of the arrow stands the rest of it. -/
def PointsTo (s body : List Char) (target : String) : Prop :=
  ∃ gap name rest, Blank gap ∧ IsName name ∧ Blank rest ∧ target = .ofList name ∧
    s = body ++ '-' :: '>' :: (gap ++ name ++ rest)

/-- What is read is an arrow at the end. -/
theorem pointsTo_of_beforeArrow? {s body : List Char} {target : String}
    (h : beforeArrow? s = some (body, target)) : PointsTo s body target := by
  obtain ⟨rest, hrest, hs⟩ := exists_trimStart s.reverse
  unfold beforeArrow? at h
  generalize trimStart s.reverse = back at h hs
  dsimp only at h
  obtain ⟨gap, hgap, hback⟩ := exists_trimStart (back.dropWhile isWordChar)
  split at h
  · next body' harrow =>
    rw [Option.ite_none_left_eq_some] at h
    obtain ⟨hne, h⟩ := h
    cases h
    have hname : IsName (back.takeWhile isWordChar) :=
      ⟨by simpa using hne, fun _ => List.mem_takeWhile_imp⟩
    refine ⟨gap.reverse, (back.takeWhile isWordChar).reverse, rest.reverse, ?_, hname.reverse, ?_,
      rfl, ?_⟩
    · exact fun c hc => hgap c (List.mem_reverse.1 hc)
    · exact fun c hc => hrest c (List.mem_reverse.1 hc)
    · rw [harrow] at hback
      have hline := congrArg List.reverse hs
      rw [List.reverse_reverse, ← List.takeWhile_append_dropWhile (p := isWordChar) (l := back),
        hback] at hline
      simpa using hline
  · cases h

/-- An arrow at the end is read. -/
theorem PointsTo.beforeArrow? {s body : List Char} {target : String} (h : PointsTo s body target) :
    beforeArrow? s = some (body, target) := by
  obtain ⟨gap, name, rest, hgap, hname, hrest, rfl, rfl⟩ := h
  have hback : (body ++ '-' :: '>' :: (gap ++ name ++ rest)).reverse =
      rest.reverse ++ (name.reverse ++ (gap.reverse ++ '>' :: '-' :: body.reverse)) := by simp
  have hgap' : Blank gap.reverse := fun c hc => hgap c (List.mem_reverse.1 hc)
  have hrest' : Blank rest.reverse := fun c hc => hrest c (List.mem_reverse.1 hc)
  -- Behind the name, read backwards, stands a blank or the head of the arrow.
  have hend : ∀ c ∈ (gap.reverse ++ '>' :: '-' :: body.reverse).head?, isWordChar c = false := by
    intro c hc
    cases hreverse : gap.reverse with
    | nil =>
      obtain rfl : '>' = c := by simpa [hreverse] using hc
      decide
    | cons d blanks =>
      obtain rfl : d = c := by simpa [hreverse] using hc
      exact isWordChar_of_isBlank (hgap' d (hreverse ▸ List.mem_cons_self))
  have harrow : trimStart ('>' :: '-' :: body.reverse) = '>' :: '-' :: body.reverse :=
    trimStart_eq_self (by simp; decide)
  have hne : name.reverse.isEmpty = false := by simpa using hname.ne
  rw [Statement.beforeArrow?, hback, hrest'.trimStart_append, hname.reverse.trimStart]
  simp only [hname.reverse.takeWhile hend, hname.reverse.dropWhile hend, hgap'.trimStart_append,
    harrow, hne]
  simp

/-- There is one arrow at the end of a text. -/
theorem PointsTo.unique {s body body' : List Char} {target target' : String}
    (h : PointsTo s body target) (h' : PointsTo s body' target') :
    body = body' ∧ target = target' := by
  have hsame := h.beforeArrow?.symm.trans h'.beforeArrow?
  cases hsame
  exact ⟨rfl, rfl⟩

theorem pointsTo_cons_iff {c : Char} {s body : List Char} {target : String} :
    PointsTo (c :: s) (c :: body) target ↔ PointsTo s body target := by
  simp [PointsTo]

/-! ## Parts of a choice -/

/-- A way to take a choice apart: a star, blanks, a text, blanks, and an arrow to a target. -/
structure ChoiceParts (s lead text : List Char) (target : String) : Prop where
  blank : Blank lead
  ne : text ≠ []
  points : ∃ trail, Blank trail ∧ PointsTo s ('*' :: (lead ++ text ++ trail)) target

/-- The way in which a choice is read: with the most blanks in front, then with the shortest text. -/
structure Preferred (s lead text : List Char) (target : String) : Prop
    extends ChoiceParts s lead text target where
  most : ∀ lead' text' target', ChoiceParts s lead' text' target' → lead'.length ≤ lead.length
  least : ∀ text' target', ChoiceParts s lead text' target' → text.length ≤ text'.length

/-- Of blanks alone the last one is the text, and all others are in front of it. -/
theorem choiceText?_of_blank {body : List Char} (h : Blank body) (hne : body ≠ []) :
    ∃ lead c, body = lead ++ [c] ∧ isBlank c = true ∧ choiceText? body = some (.ofList [c]) := by
  obtain ⟨lead, c, rfl⟩ := List.eq_nil_or_concat body |>.resolve_left hne
  rw [List.concat_eq_append] at h ⊢
  refine ⟨lead, c, rfl, h c (by simp), ?_⟩
  have hnil : trim (lead ++ [c]) = [] :=
    trimEnd_eq_nil_iff.2 fun d hd => h d (List.dropWhile_suffix _ |>.subset hd)
  rw [choiceText?, hnil]
  simp

theorem choiceText?_of_trim {body : List Char} (h : trim body ≠ []) :
    choiceText? body = some (.ofList (trim body)) := by
  unfold choiceText?
  split
  · next hnil => exact absurd hnil h
  · rfl

/-- What is in front of the arrow is taken apart in the preferred way. -/
theorem preferred_of_choiceText? {s body : List Char} {text target : String}
    (hpoints : PointsTo s ('*' :: body) target) (h : choiceText? body = some text) :
    ∃ lead, Preferred s lead text.toList target := by
  -- All other ways are ways to take the same characters apart.
  have hbody {lead' text' : List Char} {target' : String}
      (hparts : ChoiceParts s lead' text' target') :
      Blank lead' ∧ text' ≠ [] ∧ ∃ trail', Blank trail' ∧ body = lead' ++ text' ++ trail' := by
    obtain ⟨trail', htrail', hpoints'⟩ := hparts.points
    exact ⟨hparts.blank, hparts.ne, trail', htrail', List.cons.inj (hpoints.unique hpoints').1 |>.2⟩
  by_cases hnil : trim body = []
  · have hblank : Blank body := by
      obtain ⟨lead, trail, hlead, htrail, hsplit⟩ := exists_trim body
      rw [hnil, List.append_nil] at hsplit
      rw [hsplit]
      exact List.forall_mem_append.2 ⟨hlead, htrail⟩
    have hne : body ≠ [] := by
      rintro rfl
      cases h
    obtain ⟨lead, c, rfl, -, htext⟩ := choiceText?_of_blank hblank hne
    obtain rfl : text = .ofList [c] := by simpa [htext] using h.symm
    rw [String.toList_ofList]
    refine ⟨lead, ⟨(List.forall_mem_append.1 hblank).1, List.cons_ne_nil _ _, [],
      List.forall_mem_nil _, by rwa [List.append_nil]⟩, ?_, ?_⟩
    · intro lead' text' target' hparts
      obtain ⟨-, hne', trail', -, hsplit⟩ := hbody hparts
      have hlength := congrArg List.length hsplit
      have hpos := List.length_pos_iff.2 hne'
      simp only [List.length_append, List.length_singleton] at hlength
      omega
    · intro text' target' hparts
      exact List.length_pos_iff.2 hparts.ne
  · obtain ⟨lead, trail, hlead, htrail, hsplit⟩ := exists_trim body
    obtain rfl : text = .ofList (trim body) := by
      rw [choiceText?_of_trim hnil] at h
      exact (Option.some.inj h).symm
    rw [String.toList_ofList]
    have htrimmed := trimmed_trim body
    generalize trim body = middle at hnil hsplit htrimmed
    refine ⟨lead, ⟨hlead, hnil, trail, htrail, hsplit ▸ hpoints⟩, ?_, ?_⟩
    · intro lead' text' target' hparts
      obtain ⟨hlead', -, trail', -, hsplit'⟩ := hbody hparts
      obtain ⟨c, rest, rfl⟩ := List.exists_cons_of_ne_nil hnil
      have hsame := hsplit'.symm.trans hsplit
      rw [List.append_assoc, List.append_assoc, List.cons_append] at hsame
      exact hlead'.length_le (htrimmed.head c rfl) hsame
    · intro text' target' hparts
      obtain ⟨-, -, trail', htrail', hsplit'⟩ := hbody hparts
      obtain ⟨front, c, rfl⟩ := List.eq_nil_or_concat middle |>.resolve_left hnil
      rw [List.concat_eq_append] at hsplit htrimmed ⊢
      have hsame := hsplit'.symm.trans hsplit
      have hlength := congrArg List.length hsame
      rw [← List.append_assoc] at hsame
      have hback := htrail'.length_le_back (htrimmed.last c (by simp)) hsame
      simp only [List.length_append] at hlength ⊢
      omega

/-! ## Reading a choice -/

theorem choice?_of_pointsTo {s body : List Char} {target : String}
    (h : PointsTo s ('*' :: body) target) :
    choice? s = (choiceText? body).map fun text => (text, target) := by
  obtain ⟨rest, rfl⟩ : ∃ rest, s = '*' :: rest := by
    obtain ⟨gap, name, rest, -, -, -, -, rfl⟩ := h
    exact ⟨_, rfl⟩
  rw [choice?, (pointsTo_cons_iff.1 h).beforeArrow?]
  simp only [Option.bind_eq_bind, Option.bind_some]
  cases choiceText? body <;> rfl

theorem pointsTo_of_choice? {s : List Char} {text target : String}
    (h : choice? s = some (text, target)) :
    ∃ body, PointsTo s ('*' :: body) target ∧ choiceText? body = some text := by
  unfold choice? at h
  split at h
  · obtain ⟨⟨body, target'⟩, hbefore, h⟩ := Option.bind_eq_some_iff.1 h
    obtain ⟨text', htext, h⟩ := Option.bind_eq_some_iff.1 h
    cases h
    exact ⟨body, pointsTo_cons_iff.2 (pointsTo_of_beforeArrow? hbefore), htext⟩
  · cases h

theorem exists_choiceText? {body : List Char} (h : body ≠ []) :
    ∃ text, choiceText? body = some text := by
  by_cases hnil : trim body = []
  · rw [choiceText?, hnil, List.getLast?_eq_some_getLast h]
    exact ⟨_, rfl⟩
  · exact ⟨_, choiceText?_of_trim hnil⟩

/-- There is one preferred way. -/
theorem Preferred.unique {s lead text lead' text' : List Char} {target target' : String}
    (h : Preferred s lead text target) (h' : Preferred s lead' text' target') :
    text = text' ∧ target = target' := by
  obtain ⟨trail, -, hpoints⟩ := h.points
  obtain ⟨trail', -, hpoints'⟩ := h'.points
  obtain ⟨hbody, rfl⟩ := hpoints.unique hpoints'
  rw [List.append_assoc, List.append_assoc, List.cons.injEq] at hbody
  have hlength : lead.length = lead'.length :=
    Nat.le_antisymm (h'.most _ _ _ h.toChoiceParts) (h.most _ _ _ h'.toChoiceParts)
  obtain ⟨rfl, hrest⟩ := List.append_inj hbody.2 hlength
  have hshort : text.length = text'.length :=
    Nat.le_antisymm (h.least _ _ h'.toChoiceParts) (h'.least _ _ h.toChoiceParts)
  exact ⟨(List.append_inj hrest hshort).1, rfl⟩

/-- A choice is read in the preferred way. -/
theorem choice?_eq_some_iff {s : List Char} {text target : String} :
    choice? s = some (text, target) ↔ ∃ lead, Preferred s lead text.toList target := by
  constructor
  · intro h
    obtain ⟨body, hpoints, htext⟩ := pointsTo_of_choice? h
    exact preferred_of_choiceText? hpoints htext
  · rintro ⟨lead, hpreferred⟩
    obtain ⟨trail, -, hpoints⟩ := hpreferred.points
    have hne : lead ++ text.toList ++ trail ≠ [] :=
      List.append_ne_nil_of_left_ne_nil (List.append_ne_nil_of_right_ne_nil _ hpreferred.ne) _
    obtain ⟨read, hread⟩ := exists_choiceText? hne
    obtain ⟨lead', hpreferred'⟩ := preferred_of_choiceText? hpoints hread
    obtain ⟨hsame, -⟩ := hpreferred'.unique hpreferred
    rw [choice?_of_pointsTo hpoints, hread, String.toList_inj.1 hsame]
    rfl

/-- A line is a choice exactly if it is read as one: nothing that is tried before begins with a
star. -/
theorem ofTrimmed_eq_choice_iff {s : List Char} {text target : String} :
    ofTrimmed s = .choice text target ↔ choice? s = some (text, target) := by
  constructor
  · intro h
    unfold ofTrimmed at h
    repeat' split at h
    all_goals cases h
    assumption
  · intro h
    obtain ⟨rest, rfl⟩ : ∃ rest, s = '*' :: rest := by
      unfold choice? at h
      split at h
      · exact ⟨_, rfl⟩
      · cases h
    simp [ofTrimmed, header?, h]

/-! ## Blanks around the text of a choice -/

/-- A text without blanks at its ends, or a single blank: else one of its blanks could be counted to
those beside it, and that would be a better way. -/
theorem Preferred.trimmed_or_blank {s lead text : List Char} {target : String}
    (h : Preferred s lead text target) :
    Trimmed text ∨ ∃ c, isBlank c = true ∧ text = [c] := by
  obtain ⟨c, rest, rfl⟩ := List.exists_cons_of_ne_nil h.ne
  obtain ⟨trail, htrail, hpoints⟩ := h.points
  by_cases hc : isBlank c = true
  · right
    refine ⟨c, hc, ?_⟩
    by_contra hne
    have hbetter : ChoiceParts s (lead ++ [c]) rest target :=
      ⟨List.forall_mem_append.2 ⟨h.blank, by simpa using hc⟩, by simpa using hne, trail, htrail,
        by simpa using hpoints⟩
    have hmost := h.most _ _ _ hbetter
    rw [List.length_append, List.length_singleton] at hmost
    omega
  · left
    refine ⟨by simpa using hc, ?_⟩
    intro d hd
    rw [← Bool.not_eq_true]
    intro hblank
    obtain ⟨front, hfront⟩ := List.getLast?_eq_some_iff.1 hd
    rw [hfront] at h hpoints
    have hne : front ≠ [] := by
      rintro rfl
      cases hfront
      exact hc hblank
    have hbetter : ChoiceParts s lead front target :=
      ⟨h.blank, hne, d :: trail, List.forall_mem_cons.2 ⟨hblank, htrail⟩, by simpa using hpoints⟩
    have hleast := h.least _ _ hbetter
    rw [List.length_append, List.length_singleton] at hleast
    omega

/-- A choice without a text: nothing but blanks between the star and the arrow. -/
def BareChoice (s : List Char) : Prop :=
  ∃ blanks target, Blank blanks ∧ blanks ≠ [] ∧ PointsTo s ('*' :: blanks) target

/-- Only where there is nothing but blanks a blank is the text. -/
theorem Preferred.not_trimmed_iff {s lead text : List Char} {target : String}
    (h : Preferred s lead text target) : ¬Trimmed text ↔ BareChoice s := by
  obtain ⟨trail, htrail, hpoints⟩ := h.points
  constructor
  · intro htext
    obtain ⟨c, hc, rfl⟩ := h.trimmed_or_blank.resolve_left htext
    refine ⟨lead ++ [c] ++ trail, target, ?_, by simp, hpoints⟩
    exact List.forall_mem_append.2
      ⟨List.forall_mem_append.2 ⟨h.blank, by simpa using hc⟩, htrail⟩
  · rintro ⟨blanks, target', hblanks, -, hpoints'⟩ htext
    obtain ⟨hbody, -⟩ := hpoints.unique hpoints'
    obtain ⟨c, rest, rfl⟩ := List.exists_cons_of_ne_nil h.ne
    have hc : isBlank c = true := hblanks c (by rw [← (List.cons.inj hbody).2]; simp)
    rw [htext.head c rfl] at hc
    cases hc

/-- A choice without a text is read all the same. -/
theorem BareChoice.exists_choice? {s : List Char} (h : BareChoice s) :
    ∃ text target, choice? s = some (text, target) := by
  obtain ⟨blanks, target, -, hne, hpoints⟩ := h
  obtain ⟨text, htext⟩ := exists_choiceText? hne
  exact ⟨text, target, by rw [choice?_of_pointsTo hpoints, htext]; rfl⟩

end VisualNovel.Story.Statement
