/-!
# Ordered maps

A map as a list of pairs in the order in which the keys first came. To give a key a value again
changes the value in its place.

Results:
* `lookup_upsert`: what is found after `upsert`.
* `keys_upsert_of_mem`, `keys_upsert_of_not_mem`: `upsert` keeps the keys, or adds one at the end.
* `nodup_upsert`: `upsert` keeps the keys distinct.
-/
namespace VisualNovel.Assoc
variable {κ α : Type} [DecidableEq κ]

/-- Gives a key its value: in place if the key is there, at the end if not. -/
def upsert (key : κ) (value : α) : List (κ × α) → List (κ × α)
  | [] => [(key, value)]
  | (k, v) :: rest => if k = key then (k, value) :: rest else (k, v) :: upsert key value rest

/-- Removes a key. -/
def erase (key : κ) (m : List (κ × α)) : List (κ × α) := m.filter (·.1 ≠ key)

/-- The keys, in order. -/
def keys (m : List (κ × α)) : List κ := m.map Prod.fst

theorem lookup_cons (key k : κ) (v : α) (m : List (κ × α)) :
    ((k, v) :: m).lookup key = if key = k then some v else m.lookup key := by
  rw [List.lookup_cons]
  by_cases h : key = k
  · rw [if_pos h, beq_iff_eq.mpr h]
  · rw [if_neg h, beq_eq_false_iff_ne.mpr h]

/-- What is found after `upsert`. -/
theorem lookup_upsert (key k : κ) (value : α) (m : List (κ × α)) :
    (upsert key value m).lookup k = if k = key then some value else m.lookup k := by
  induction m with
  | nil => simp [upsert, lookup_cons]
  | cons p m ih =>
    obtain ⟨j, v⟩ := p
    by_cases hj : j = key
    · by_cases hk : k = key <;> simp [upsert, lookup_cons, hj, hk]
    · by_cases hk : k = key
      · subst hk
        simp [upsert, lookup_cons, hj, Ne.symm hj, ih]
      · simp [upsert, lookup_cons, hj, hk, ih]

/-- A key that is there keeps its place. -/
theorem keys_upsert_of_mem {key : κ} {value : α} {m : List (κ × α)} (h : key ∈ keys m) :
    keys (upsert key value m) = keys m := by
  induction m with
  | nil => simp [keys] at h
  | cons p m ih =>
    obtain ⟨k, v⟩ := p
    by_cases hk : k = key
    · simp [upsert, keys, hk]
    · have : key ∈ keys m := by
        simp only [keys, List.map_cons, List.mem_cons] at h
        exact h.resolve_left (Ne.symm hk)
      have := ih this
      simp only [keys] at this
      simp [upsert, keys, hk, this]

/-- A key that is new comes last, with its value. -/
theorem upsert_of_not_mem {key : κ} {value : α} {m : List (κ × α)} (h : key ∉ keys m) :
    upsert key value m = m ++ [(key, value)] := by
  induction m with
  | nil => rfl
  | cons p m ih =>
    obtain ⟨k, v⟩ := p
    simp only [keys, List.map_cons, List.mem_cons, not_or] at h
    rw [upsert, if_neg (Ne.symm h.1), ih h.2, List.cons_append]

/-- An entry that is found in the map was there, or has just been made. -/
theorem mem_of_mem_upsert {key : κ} {value : α} {m : List (κ × α)} {entry : κ × α}
    (h : entry ∈ upsert key value m) : entry ∈ m ∨ entry = (key, value) := by
  induction m with
  | nil => exact .inr (List.mem_singleton.1 h)
  | cons p m ih =>
    obtain ⟨k, v⟩ := p
    unfold upsert at h
    split at h
    · next hk =>
      rcases List.mem_cons.1 h with rfl | h
      · exact .inr (by rw [hk])
      · exact .inl (List.mem_cons_of_mem _ h)
    · rcases List.mem_cons.1 h with rfl | h
      · exact .inl List.mem_cons_self
      · exact (ih h).imp_left (List.mem_cons_of_mem _)

/-- A key that is new comes last. -/
theorem keys_upsert_of_not_mem {key : κ} {value : α} {m : List (κ × α)} (h : key ∉ keys m) :
    keys (upsert key value m) = keys m ++ [key] := by
  rw [upsert_of_not_mem h, keys, List.map_append]
  rfl

/-- The keys stay distinct. -/
theorem nodup_upsert {key : κ} {value : α} {m : List (κ × α)} (h : (keys m).Nodup) :
    (keys (upsert key value m)).Nodup := by
  by_cases hkey : key ∈ keys m
  · rwa [keys_upsert_of_mem hkey]
  · rw [keys_upsert_of_not_mem hkey, List.nodup_append]
    refine ⟨h, List.pairwise_singleton .., ?_⟩
    intro k hk k' hk' heq
    rw [heq, List.mem_singleton.1 hk'] at hk
    exact hkey hk

/-- What is found after `erase`. -/
theorem lookup_erase (key k : κ) (m : List (κ × α)) :
    (erase key m).lookup k = if k = key then none else m.lookup k := by
  induction m with
  | nil => simp [erase]
  | cons p m ih =>
    obtain ⟨j, v⟩ := p
    unfold erase at ih ⊢
    by_cases hj : j = key
    · rw [List.filter_cons_of_neg (by simp [hj]), ih, lookup_cons]
      by_cases hk : k = key <;> simp [hj, hk]
    · rw [List.filter_cons_of_pos (by simp [hj]), lookup_cons, lookup_cons, ih]
      by_cases hk : k = key
      · simp [hk, Ne.symm hj]
      · simp [hk]

end VisualNovel.Assoc
