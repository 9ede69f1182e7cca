import VisualNovel.Proofs.Story.Manuscripts
/-!
# Accepted stories cannot go wrong

Content that is handed in is refused, or it is a story that can be played in any way. Then there is
always a line to read, or something to choose, or the end; what is not there is refused and changes
nothing; and no look into the values of the story goes wrong, though none is guarded
(`accepted_stories_cannot_go_wrong`).

Only a text may also break off the reading without being refused: one that holds an integer of too
many digits, or lists that are nested too deeply.
-/
namespace VisualNovel.Json

/-- Lists that are nested deeper than there is room for break off the reading. -/
theorem readValue_nested (room : Nat) (rest : List Char) {fuel : Nat} (hfuel : 2 * room < fuel) :
    readValue fuel room (List.replicate (room + 1) '[' ++ rest) = .error (.misfit .depth) := by
  induction room generalizing fuel with
  | zero =>
    obtain ⟨fuel, rfl⟩ : ∃ f, fuel = f + 1 := ⟨fuel - 1, by omega⟩
    simp [readValue, enter, bind, Except.bind]
  | succ room ih =>
    obtain ⟨fuel, rfl⟩ : ∃ f, fuel = f + 2 := ⟨fuel - 2, by omega⟩
    have hinner := ih (show 2 * room < fuel by omega)
    rw [List.replicate_succ, List.cons_append] at hinner ⊢
    rw [List.replicate_succ, List.cons_append]
    simp [readValue, enter, skipBlanks, readItems, hinner, bind, Except.bind, Except.map]

/-- Lists that are nested too deeply are not taken in, whatever follows. -/
theorem parse_nested (rest : List Char) :
    parse (.ofList (List.replicate (mostLevels + 1) '[' ++ rest)) = .error (.misfit .depth) := by
  have hskip : skipBlanks (List.replicate (mostLevels + 1) '[' ++ rest) =
      List.replicate (mostLevels + 1) '[' ++ rest := by
    rw [List.replicate_succ]
    rfl
  have hfuel : 2 * mostLevels < 2 * (List.replicate (mostLevels + 1) '[' ++ rest).length + 2 := by
    rw [List.length_append, List.length_replicate]
    omega
  have hread := readValue_nested mostLevels rest hfuel
  rw [parse, String.toList_ofList, hskip]
  simp only [hread, bind, Except.bind]

/-- An integer of too many digits is not taken in. -/
theorem parse_digits (k : Nat) :
    parse (.ofList (List.replicate (mostDigits + 1 + k) '1')) = .error (.misfit .value) := by
  have hcons : List.replicate (mostDigits + 1 + k) '1' =
      '1' :: List.replicate (mostDigits + k) '1' := by
    rw [show mostDigits + 1 + k = mostDigits + k + 1 by omega, List.replicate_succ]
  have hwhole : readWhole (List.replicate (mostDigits + 1 + k) '1') =
      some (List.replicate (mostDigits + 1 + k) '1', []) := by
    have hspan : spanDigits (List.replicate (mostDigits + 1 + k) '1') =
        (List.replicate (mostDigits + 1 + k) '1', []) := by
      simp [spanDigits]
    rw [hcons] at hspan ⊢
    simp [readWhole, hspan]
  have hnumber : readNumber false (List.replicate (mostDigits + 1 + k) '1') =
      .error (.misfit .value) := by
    have hlong : mostDigits < mostDigits + 1 + k := by omega
    simp [readNumber, hwhole, orNotJson, readFraction, readExponent, hlong, bind, Except.bind]
  have hskip : skipBlanks (List.replicate (mostDigits + 1 + k) '1') =
      List.replicate (mostDigits + 1 + k) '1' := by
    rw [hcons]
    rfl
  have hread (fuel room : Nat) : readValue (fuel + 1) room
      (List.replicate (mostDigits + 1 + k) '1') = .error (.misfit .value) := by
    rw [hcons] at hnumber ⊢
    simp [readValue, hnumber]
  rw [parse, String.toList_ofList, hskip]
  simp only [hread, bind, Except.bind]

end VisualNovel.Json

namespace VisualNovel.Story

/-- The value that content stands for: what a text holds, or the value itself. -/
def dataOf : Json → Json.Reader Json
  | .str s => Json.parse s
  | j => .ok j

theorem Graph.ofContent_eq (content : Json) :
    Graph.ofContent content =
      match dataOf content with
      | .error .notJson => .error .notJson
      | .error (.misfit e) => .error (.unreadable e)
      | .ok data => Graph.ofJson data := by
  cases content <;> rfl

/-- Opens content in place. -/
def Manuscript.ofContent (content : Json) :
    Look (Except FormatError (Manuscript × List Log.Entry)) :=
  match dataOf content with
  | .error .notJson => .ok (.error .notJson)
  | .error (.misfit e) => .ok (.error (.unreadable e))
  | .ok data => if (Graph.ofShape? data).isNone then .ok (.error .shape) else openData data

/-- What comes of content in place comes of it when it is read beforehand. -/
theorem Manuscript.ofContent_eq (content : Json) :
    match Graph.ofContent content with
    | .error e => Manuscript.ofContent content = .ok (.error e)
    | .ok g => ∃ m, Manuscript.ofContent content = .ok (.ok (m, (Player.start g).2)) ∧
        m.Mirrors (Player.start g).1 := by
  rw [Graph.ofContent_eq, Manuscript.ofContent]
  cases dataOf content with
  | error e => cases e <;> rfl
  | ok data =>
    simp only [Graph.ofJson]
    cases hshape : Graph.ofShape? data with
    | none => rfl
    | some g =>
      have hopen := Manuscript.openData_of_shape hshape
      cases hfault : g.fault? with
      | some e =>
        rw [hfault] at hopen
        simpa [hfault] using hopen
      | none =>
        rw [hfault] at hopen
        simpa [hfault] using hopen

/-- A graph with a fault is refused for it. -/
theorem Graph.isRefusal_of_fault? {g : Graph} {e : FormatError} (h : g.fault? = some e) :
    e.isRefusal = true := by
  rw [Graph.fault?] at h
  cases hdup : firstDuplicate? [] g.nodes with
  | some id =>
    rw [hdup] at h
    cases h
    rfl
  | none =>
    rw [hdup] at h
    cases hunknown : g.unknownTarget? with
    | some t =>
      rw [hunknown] at h
      cases h
      rfl
    | none =>
      simp only [hunknown, Option.ite_none_right_eq_some] at h
      cases h.2
      rfl

/-- A value is read, or refused. -/
theorem Graph.isRefusal_of_ofJson {data : Json} {e : FormatError}
    (h : Graph.ofJson data = .error e) : e.isRefusal = true := by
  rw [Graph.ofJson] at h
  cases hshape : Graph.ofShape? data with
  | none =>
    rw [hshape] at h
    cases h
    rfl
  | some g =>
    rw [hshape] at h
    cases hfault : g.fault? with
    | none => simp [hfault] at h
    | some e' =>
      simp only [hfault] at h
      cases h
      exact Graph.isRefusal_of_fault? hfault

/-- Only a text may break off the reading without being refused. -/
theorem Graph.isRefusal_of_ofContent {content : Json} {e : FormatError}
    (h : Graph.ofContent content = .error e) :
    e.isRefusal = false ↔ ∃ s m, content = .str s ∧ Json.parse s = .error (.misfit m) := by
  have hread {data : Json} (hdata : dataOf content = .ok data) : e.isRefusal = true := by
    rw [Graph.ofContent_eq, hdata] at h
    exact Graph.isRefusal_of_ofJson h
  cases content with
  | str s =>
    cases hparse : Json.parse s with
    | ok data => simp [hread hparse, hparse]
    | error fault =>
      rw [Graph.ofContent, hparse] at h
      cases fault <;> cases h <;> simp [FormatError.isRefusal, hparse]
  | _ => simp [hread rfl]

/-- What is seen of a manuscript is what is seen of a player. -/
structure Manuscript.Resembles (m : Manuscript) (p : Player) : Prop where
  canContinue : m.canContinue = .ok p.canContinue
  offers : m.offers = .ok p.choices
  ended : m.node.isNone = p.hasEnded
  tags : m.tags = p.tags

theorem Manuscript.Mirrors.resembles {m : Manuscript} {p : Player} (h : m.Mirrors p) :
    m.Resembles p := by
  refine ⟨h.canContinue, h.offers, ?_, h.tags⟩
  rw [Player.hasEnded]
  cases hp : p.place with
  | none =>
    rw [h.node_none hp]
    rfl
  | some q =>
    obtain ⟨j, hm, -⟩ := h.node hp
    rw [hm]
    rfl

/-- **Accepted stories cannot go wrong.** Content is opened without a slip. It is refused, or it is
a story that takes all moves without a slip, and after each of them it is orderly. Texts that cannot
be taken in are an exception: lists that are nested too deeply break off the reading, and so do
integers of too many digits. -/
theorem accepted_stories_cannot_go_wrong (content : Json) :
    (match Graph.ofContent content with
    | .error e => Manuscript.ofContent content = .ok (.error e) ∧
        (e.isRefusal = false ↔ ∃ s m, content = .str s ∧ Json.parse s = .error (.misfit m))
    | .ok g => ∃ m, Manuscript.ofContent content = .ok (.ok (m, (Player.start g).2)) ∧
        ∀ ms, (g.playedBy ms).Orderly ∧
          ∃ m', m.moves ms = .ok (m', g.repliesTo ms) ∧ m'.Resembles (g.playedBy ms)) ∧
    (∀ rest, Graph.ofContent (.str (.ofList (List.replicate (Json.mostLevels + 1) '[' ++ rest))) =
      .error (.unreadable .depth)) ∧
    ∀ k, Graph.ofContent (.str (.ofList (List.replicate (Json.mostDigits + 1 + k) '1'))) =
      .error (.unreadable .value) := by
  refine ⟨?_, ?_, ?_⟩
  · have hopen := Manuscript.ofContent_eq content
    cases hcontent : Graph.ofContent content with
    | error e =>
      rw [hcontent] at hopen
      exact ⟨hopen, Graph.isRefusal_of_ofContent hcontent⟩
    | ok g =>
      rw [hcontent] at hopen
      obtain ⟨m, hm, hmirrors⟩ := hopen
      have hsound := Graph.Sound.of_content hcontent
      obtain ⟨a, -, -, hshows, hstands⟩ := Player.start_enters hsound
      refine ⟨m, hm, ?_⟩
      intro ms
      obtain ⟨-, -, -, hstands'⟩ := hstands.moves hsound hshows ms
      obtain ⟨m', hmoves, hmirrors'⟩ := hmirrors.moves hsound hstands ms
      exact ⟨hstands'.orderly hsound, m', hmoves, hmirrors'.resembles⟩
  · intro rest
    rw [Graph.ofContent, Json.parse_nested]
  · intro k
    rw [Graph.ofContent, Json.parse_digits]

end VisualNovel.Story
