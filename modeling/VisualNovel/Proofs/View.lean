import VisualNovel.Proofs.Dialogue.Chamber
/-!
# The panel of a view

A view with room for a number of choices (`View.Sound`) answers every call of a dialogue that does not
offer more, and its panel becomes what the call says (`View.perform_eq`). Moving the focus goes from
choice to choice.
-/
namespace VisualNovel.View

/-- The choices that a view holds, and what has the focus. -/
def panel (v : View) : Panel := ⟨v.choices, v.focus.focused⟩

/-- A view has room for `k` choices, the focus goes through the choices on offer, and what has it is
a button or a slot. -/
structure Sound (k : Nat) (v : View) : Prop where
  slots : v.slots = .count k
  order : v.focus.order = (List.range v.choices.length).map fun i : Nat => some (.slot i)
  plain : ∀ j, v.focus.focused ≠ some (.other j)

variable {k : Nat} {v : View}

/-! ## The focus -/

/-- Among buttons and slots only the same target is the same. -/
theorem same_plain {s t : Option Target} (hs : ∀ j, s ≠ some (.other j))
    (ht : ∀ j, t ≠ some (.other j)) : Target.same s t = decide (s = t) := by
  cases s with
  | none => rfl
  | some s =>
    cases t with
    | none => cases s <;> rfl
    | some t =>
      cases s with
      | other j => exact absurd rfl (hs j)
      | button | slot =>
        cases t with
        | other j => exact absurd rfl (ht j)
        | button | slot => rfl

theorem set_focused (f : Focus) (hf : ∀ j, f.focused ≠ some (.other j)) {t : Option Target}
    (ht : ∀ j, t ≠ some (.other j)) : (f.set t).1 = { f with focused := t } := by
  unfold Focus.set
  rw [same_plain ht hf]
  by_cases h : t = f.focused
  · rw [if_pos (decide_eq_true h), h]
  · rw [if_neg (by simpa using h)]

theorem Sound.setFocus_eq (h : v.Sound k) {t : Option Target} (ht : ∀ j, t ≠ some (.other j)) :
    v.setFocus t = { v with focus := { v.focus with focused := t } } := by
  unfold setFocus
  rw [set_focused v.focus h.plain ht]

theorem Sound.setFocus (h : v.Sound k) {t : Option Target} (ht : ∀ j, t ≠ some (.other j)) :
    (v.setFocus t).Sound k := by
  rw [h.setFocus_eq ht]
  exact ⟨h.slots, h.order, ht⟩

/-- Wherever the focus is moved among the choices, it goes to one of them or stays. -/
theorem Sound.moveFocus (h : v.Sound k) (delta : Int) :
    (v.moveFocus delta).1.Sound k ∧ (v.moveFocus delta).1.choices = v.choices ∧
      (v.moveFocus delta).1.startPanel = v.startPanel ∧
      ((v.moveFocus delta).1.focus.focused = v.focus.focused ∨
        ∃ i : Nat, i < v.choices.length ∧
          (v.moveFocus delta).1.focus.focused = some (.slot i)) := by
  unfold View.moveFocus
  split
  · exact ⟨h, rfl, rfl, Or.inl rfl⟩
  · unfold Focus.navigate
    match hn : v.focus.neighbour? delta with
    | none => exact ⟨h, rfl, rfl, Or.inl rfl⟩
    | some t =>
      have hmem : t ∈ v.focus.order := by
        unfold Focus.neighbour? at hn
        split at hn
        · exact List.mem_of_head? hn
        · exact List.mem_of_getElem? hn
      rw [h.order, List.mem_map] at hmem
      obtain ⟨i, hi, rfl⟩ := hmem
      have hset := set_focused v.focus h.plain (t := some (.slot i)) nofun
      simp only [hset]
      exact ⟨⟨h.slots, h.order, nofun⟩, trivial, trivial, Or.inr ⟨i, List.mem_range.1 hi, rfl⟩⟩

theorem Sound.showStart (h : v.Sound k) : v.showStart.Sound k := ⟨h.slots, h.order, h.plain⟩

/-- With the start panel its button loses the focus; the choices stay. -/
theorem Sound.showDialogue (h : v.Sound k) :
    v.showDialogue.Sound k ∧ v.showDialogue.startPanel = false ∧
      ∀ bs, v.panel.Shows bs → v.showDialogue.panel.Shows bs := by
  have hsound : ({ v with startPanel := false, dialoguePanel := true } : View).Sound k :=
    ⟨h.slots, h.order, h.plain⟩
  unfold View.showDialogue
  by_cases hstart : v.focus.focused = some startButton
  · rw [if_pos hstart]
    refine ⟨hsound.setFocus (t := none) nofun, ?_, fun bs hs => ?_⟩
    · rw [hsound.setFocus_eq (t := none) nofun]
    · rw [hsound.setFocus_eq (t := none) nofun]
      exact ⟨hs.1, Panel.lit_of_dark rfl⟩
  · rw [if_neg hstart]
    exact ⟨hsound, rfl, fun _ hs => hs⟩

/-! ## Calls -/

theorem Sound.hideChoices (h : v.Sound k) :
    v.hideChoices.Sound k ∧ v.hideChoices.panel = v.panel.after .hideChoices ∧
      v.hideChoices.startPanel = v.startPanel := by
  have hsound : ({ v with choices := [], focus := { v.focus with order := [] } } : View).Sound k :=
    ⟨h.slots, rfl, h.plain⟩
  unfold View.hideChoices
  by_cases hstart : v.focus.focused = some startButton
  · rw [if_pos hstart]
    refine ⟨hsound, ?_, rfl⟩
    exact congrArg (Panel.mk []) (if_pos (show v.panel.focus = _ from hstart)).symm
  · rw [if_neg hstart]
    refine ⟨hsound.setFocus (t := none) nofun, ?_, ?_⟩
    · rw [hsound.setFocus_eq (t := none) nofun]
      exact congrArg (Panel.mk []) (if_neg (show ¬v.panel.focus = _ from hstart)).symm
    · rw [hsound.setFocus_eq (t := none) nofun]

theorem Sound.focusChoice (h : v.Sound k) (slot : Nat) :
    (v.focusChoice slot).Sound k ∧ (v.focusChoice slot).panel = v.panel.after (.focus slot) ∧
      (v.focusChoice slot).startPanel = v.startPanel := by
  have hslot : v.hasSlot (.int slot) = decide (slot < v.choices.length) := by
    simp [hasSlot, Number.le, Number.lt]
  unfold View.focusChoice Panel.after
  rw [hslot]
  by_cases hlt : slot < v.choices.length
  · rw [if_pos (decide_eq_true hlt)]
    refine ⟨h.setFocus (t := some (.slot slot)) nofun, ?_, ?_⟩
    · rw [h.setFocus_eq (t := some (.slot slot)) nofun]
      simp [panel, hlt]
    · rw [h.setFocus_eq (t := some (.slot slot)) nofun]
  · rw [if_neg (by simpa using hlt)]
    refine ⟨h, ?_, rfl⟩
    simp [panel, hlt]

/-- A view answers every call that does not offer more choices than there is room for. -/
theorem perform_eq (h : v.Sound k) {c : Call} (hc : ∀ cs, c = .choices cs → cs.length ≤ k) :
    ∃ v', v.perform c = .ok v' ∧ v'.Sound k ∧ v'.panel = v.panel.after c ∧
      v'.startPanel = v.startPanel := by
  cases c with
  | play | stop | switchTheme | expression | splash => exact ⟨v, rfl, h, rfl, rfl⟩
  | name text => exact ⟨_, rfl, ⟨h.slots, h.order, h.plain⟩, rfl, rfl⟩
  | line text => exact ⟨_, rfl, ⟨h.slots, h.order, h.plain⟩, rfl, rfl⟩
  | visible count => exact ⟨_, rfl, ⟨h.slots, h.order, h.plain⟩, rfl, rfl⟩
  | hideChoices => exact ⟨_, rfl, h.hideChoices⟩
  | clearFocus =>
    refine ⟨_, rfl, h.setFocus (t := none) nofun, ?_, ?_⟩
    · rw [h.setFocus_eq (t := none) nofun]
      rfl
    · rw [h.setFocus_eq (t := none) nofun]
  | focus slot => exact ⟨_, rfl, h.focusChoice slot⟩
  | choices cs =>
    have hall : cs.take k = cs := List.take_of_length_le (hc cs rfl)
    refine ⟨v.hold (cs.map Button.ofChoice), ?_, ⟨h.slots, rfl, h.plain⟩, rfl, rfl⟩
    unfold perform showChoices
    rw [h.slots]
    simp [Slots.cut, firstSlots, hall, Except.map, ← List.map_take]

/-- What has the focus is the choice in a slot, if it is one on offer. -/
theorem Sound.focusedChoice (h : v.Sound k) {j : Json} (hj : v.focusedChoice? = some j) :
    ∃ i : Nat, i < v.choices.length ∧ j = .int i ∧ v.focus.focused = some (.slot i) := by
  unfold focusedChoice? at hj
  obtain ⟨hfocused, hslot⟩ := Option.filter_eq_some_iff.1 hj
  obtain ⟨t, ht, rfl⟩ := Option.map_eq_some_iff.1 hfocused
  cases t with
  | other j => exact absurd ht (h.plain j)
  | button name =>
    simp [Target.value, Json.count, Except.toOption] at hslot
  | slot i =>
    have hrange : 0 ≤ i ∧ i < v.choices.length := by
      simpa [Target.value, Json.count, Except.toOption, hasSlot, Number.le, Number.lt] using hslot
    obtain ⟨i, rfl⟩ := Int.eq_ofNat_of_zero_le hrange.1
    exact ⟨i, by have := hrange.2; omega, rfl, ht⟩

end VisualNovel.View
