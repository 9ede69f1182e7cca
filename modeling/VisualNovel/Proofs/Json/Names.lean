import VisualNovel.Json.Reader
/-!
# The names in an object

The reader takes the members of an object one after the other, and one with a name that was there
before takes its place. So no two members of an object that was read have one name
(`nodup_of_parse`).
-/
namespace VisualNovel.Json

section
variable {α β ε : Type}

theorem bind_eq_ok {x : Except ε α} {f : α → Except ε β} {b : β} :
    (x >>= f) = .ok b ↔ ∃ a, x = .ok a ∧ f a = .ok b := by
  cases x <;> simp [bind, Except.bind]

theorem map_eq_ok {x : Except ε α} {f : α → β} {b : β} :
    x.map f = .ok b ↔ ∃ a, x = .ok a ∧ f a = b := by
  cases x <;> simp [Except.map]

end

variable {fuel room : Nat} {done members : List (String × Json)} {s rest : List Char}

theorem nodup_of_readMembers (hdone : (Assoc.keys done).Nodup)
    (h : readMembers fuel room done s = .ok (members, rest)) : (Assoc.keys members).Nodup := by
  induction fuel generalizing done s with
  | zero => cases h
  | succ fuel ih =>
    unfold readMembers at h
    split at h
    · obtain ⟨⟨name, behind⟩, -, h⟩ := bind_eq_ok.1 h
      dsimp only at h
      split at h
      · obtain ⟨⟨value, behind⟩, -, h⟩ := bind_eq_ok.1 h
        dsimp only at h
        split at h
        · cases h
          exact Assoc.nodup_upsert hdone
        · exact ih (Assoc.nodup_upsert hdone) h
        · cases h
      · cases h
    · cases h

theorem readWord_ne {word : String} {value : Json} (hvalue : ∀ ms, value ≠ .obj ms) :
    readWord word value s ≠ .ok (.obj members, rest) := by
  intro h
  unfold readWord at h
  split at h
  · cases h
    exact hvalue _ rfl
  · cases h

theorem readNumber_ne (negative : Bool) : readNumber negative s ≠ .ok (.obj members, rest) := by
  intro h
  unfold readNumber at h
  obtain ⟨⟨whole, behind⟩, -, h⟩ := bind_eq_ok.1 h
  dsimp only at h
  split at h
  · split at h <;> cases h
  · cases h

theorem nodup_of_readValue (h : readValue fuel room s = .ok (.obj members, rest)) :
    (Assoc.keys members).Nodup := by
  cases fuel with
  | zero => cases h
  | succ fuel =>
    unfold readValue at h
    split at h
    · obtain ⟨t, -, ht⟩ := map_eq_ok.1 h
      cases ht
    · obtain ⟨room', -, h⟩ := bind_eq_ok.1 h
      split at h
      · cases h
      · obtain ⟨items, -, hitems⟩ := map_eq_ok.1 h
        cases hitems
    · obtain ⟨room', -, h⟩ := bind_eq_ok.1 h
      split at h
      · cases h
        exact List.nodup_nil
      · obtain ⟨⟨ms, behind⟩, hread, hms⟩ := map_eq_ok.1 h
        cases hms
        have hnone : (Assoc.keys ([] : List (String × Json))).Nodup := List.nodup_nil
        exact nodup_of_readMembers hnone hread
    -- the words, and the two kinds of numbers
    · exact absurd h (readWord_ne nofun)
    · exact absurd h (readWord_ne nofun)
    · exact absurd h (readWord_ne nofun)
    · exact absurd h (readWord_ne nofun)
    · exact absurd h (readWord_ne nofun)
    · exact absurd h (readWord_ne nofun)
    · exact absurd h (readNumber_ne _)
    · exact absurd h (readNumber_ne _)

/-- No two members of an object that was read have one name. -/
theorem nodup_of_parse {text : String} (h : parse text = .ok (.obj members)) :
    (Assoc.keys members).Nodup := by
  unfold parse at h
  obtain ⟨⟨value, rest⟩, hread, h⟩ := bind_eq_ok.1 h
  dsimp only at h
  split at h
  · cases h
    exact nodup_of_readValue hread
  · cases h

end VisualNovel.Json
