import Mathlib.Data.List.Induction
import VisualNovel.Input
/-!
# What is held and what is pressed

What a player holds can be told from the reports of the devices alone: a key or a button is down if
it went down and has not come up since, and the directional pad is where it was moved last (`Held`).
The input does not keep account of all that. It goes by the last word on an action: whether the last
report that begins or ends it begins it (`pressed_snoc`). A key that comes up does not end an action
that another key holds, but no device asks after what the others hold (`Overrules`).

Results:
* `held_of_pressed`: what is pressed is held.
* `actions_are_pressed_while_held`: what is held is pressed after every report, unless one device
  overrules another; and an action is pressed if and only if it was begun and has not been ended
  since, by whatever device.
-/
namespace VisualNovel
namespace Input

/-- Something was reported, and nothing that ends it has been reported since. -/
def Since (starts ends : DeviceEvent → Prop) (es : List DeviceEvent) : Prop :=
  ∃ before e after, es = before ++ e :: after ∧ starts e ∧ ∀ e' ∈ after, ¬ends e'

/-! ## What is held -/

/-- The key goes down. -/
def Lowers (key : Json) : DeviceEvent → Prop
  | .keyDown k => sameKey key k = true
  | _ => False

/-- The key comes up. -/
def Lifts (key : Json) : DeviceEvent → Prop
  | .keyUp k => sameKey key k = true
  | _ => False

/-- The directional pad is moved. -/
def MovesPad : DeviceEvent → Prop
  | .hat _ _ => True
  | _ => False

/-- The keys that are bound to an action at the start. -/
def keysOf (a : Action) : List Json := (defaultKeys.lookup a).getD []

/-- A key of the action is down. -/
def KeyHolds (es : List DeviceEvent) (a : Action) : Prop :=
  ∃ key ∈ keysOf a, Since (Lowers key) (Lifts key) es

/-- A button of the action is down. -/
def ButtonHolds (es : List DeviceEvent) (a : Action) : Prop :=
  ∃ b, a ∈ buttonActions b ∧ Since (· = .buttonDown b) (· = .buttonUp b) es

/-- The directional pad is in the position of the action. -/
def PadHolds (es : List DeviceEvent) (a : Action) : Prop :=
  ∃ x y, hatAction? x y = some a ∧ Since (· = .hat x y) MovesPad es

/-- Something that is bound to the action is held. -/
def Held (es : List DeviceEvent) (a : Action) : Prop :=
  KeyHolds es a ∨ ButtonHolds es a ∨ PadHolds es a

/-! ## What begins and ends an action -/

/-- The key is one of the action's. -/
def IsKeyOf (a : Action) (key : Json) : Prop := ∃ k ∈ keysOf a, sameKey k key = true

/-- A report that begins an action. -/
def Begins (a : Action) : DeviceEvent → Prop
  | .keyDown key => IsKeyOf a key
  | .buttonDown b => a ∈ buttonActions b
  | .hat x y => hatAction? x y = some a
  | _ => False

/-- A report that ends an action, where `es` was reported before: the last of its keys or a button of
it comes up, or the pad is moved elsewhere. -/
def Ends (es : List DeviceEvent) (a : Action) : DeviceEvent → Prop
  | .keyUp key => IsKeyOf a key ∧ ¬KeyHolds (es ++ [.keyUp key]) a
  | .buttonUp b => a ∈ buttonActions b
  | .hat x y => isHatAction a = true ∧ hatAction? x y ≠ some a
  | _ => False

/-- A report of one device ends an action that another device still holds. -/
def Overrules (es : List DeviceEvent) (e : DeviceEvent) (a : Action) : Prop :=
  Ends es a e ∧ Held (es ++ [e]) a

/-- The input after the devices have reported. -/
def afterAll (pads : List Int) (es : List DeviceEvent) : Input :=
  es.foldl (fun i e => i.process e) (start pads)

/-! ## Histories -/

theorem since_nil {starts ends : DeviceEvent → Prop} : ¬Since starts ends [] := by
  rintro ⟨before, e, after, h, -⟩
  simp at h

/-- Where a report is found in a history that ends with another: it is that one, or it came
before. -/
theorem snoc_eq_append_cons {es before after : List DeviceEvent} {e x : DeviceEvent}
    (h : es ++ [e] = before ++ x :: after) :
    (after = [] ∧ es = before ∧ e = x) ∨
      ∃ init, after = init ++ [e] ∧ es = before ++ x :: init := by
  rcases List.eq_nil_or_concat after with rfl | ⟨init, last, rfl⟩
  · obtain ⟨hes, he⟩ := List.append_inj' h rfl
    exact .inl ⟨rfl, hes, List.singleton_inj.1 he⟩
  · have h' : es ++ [e] = (before ++ x :: init) ++ [last] := by simpa using h
    obtain ⟨hes, he⟩ := List.append_inj' h' rfl
    obtain rfl := List.singleton_inj.1 he
    exact .inr ⟨init, List.concat_eq_append, hes⟩

/-- Something was reported, and nothing has ended it since, where what ends it is a matter of what
had been reported by then. -/
def Lasts (starts : DeviceEvent → Prop) (ends : List DeviceEvent → DeviceEvent → Prop)
    (es : List DeviceEvent) : Prop :=
  ∃ before e after, es = before ++ e :: after ∧ starts e ∧
    ∀ mid e', mid ++ [e'] <+: after → ¬ends (before ++ e :: mid) e'

theorem lasts_snoc {starts : DeviceEvent → Prop} {ends : List DeviceEvent → DeviceEvent → Prop}
    {es : List DeviceEvent} {e : DeviceEvent} :
    Lasts starts ends (es ++ [e]) ↔ starts e ∨ Lasts starts ends es ∧ ¬ends es e := by
  constructor
  · rintro ⟨before, x, after, h, hx, hafter⟩
    rcases snoc_eq_append_cons h with ⟨rfl, rfl, rfl⟩ | ⟨init, rfl, rfl⟩
    · exact .inl hx
    · refine .inr ⟨⟨before, x, init, rfl, hx, ?_⟩, hafter init e (List.prefix_refl _)⟩
      intro mid e' hmid
      exact hafter mid e' (hmid.trans (List.prefix_append _ _))
  · rintro (he | ⟨⟨before, x, after, rfl, hx, hafter⟩, he⟩)
    · exact ⟨es, e, [], rfl, he, by simp⟩
    · refine ⟨before, x, after ++ [e], by simp, hx, ?_⟩
      intro mid e' hmid
      rcases List.prefix_concat_iff.1 hmid with hlast | hmid
      · obtain ⟨rfl, heq⟩ := List.append_inj' hlast rfl
        obtain rfl := List.singleton_inj.1 heq
        exact he
      · exact hafter mid e' hmid

theorem since_iff_lasts {starts ends : DeviceEvent → Prop} {es : List DeviceEvent} :
    Since starts ends es ↔ Lasts starts (fun _ => ends) es := by
  refine exists_congr fun before => exists_congr fun e => exists_congr fun after =>
    and_congr_right fun _ => and_congr_right fun _ => ⟨fun h mid e' hmid => ?_, fun h e' he' => ?_⟩
  · exact h e' (hmid.subset (by simp))
  · obtain ⟨mid, rest, rfl⟩ := List.append_of_mem he'
    exact h mid e' ⟨rest, by simp⟩

/-- One more report begins what it is to begin, and leaves the rest unless it ends it. -/
theorem since_snoc {starts ends : DeviceEvent → Prop} {es : List DeviceEvent} {e : DeviceEvent} :
    Since starts ends (es ++ [e]) ↔ starts e ∨ Since starts ends es ∧ ¬ends e := by
  rw [since_iff_lasts, since_iff_lasts, lasts_snoc]

/-! ## What one report changes -/

section
variable {es : List DeviceEvent} {e : DeviceEvent} {a : Action}

/-- A report that begins an action shows that it is held. -/
theorem held_of_begins (h : Begins a e) : Held (es ++ [e]) a := by
  cases e with
  | keyDown key =>
    obtain ⟨k, hk, hsame⟩ := h
    exact .inl ⟨k, hk, since_snoc.2 (.inl hsame)⟩
  | buttonDown b => exact .inr (.inl ⟨b, h, since_snoc.2 (.inl rfl)⟩)
  | hat x y => exact .inr (.inr ⟨x, y, h, since_snoc.2 (.inl rfl)⟩)
  | keyUp _ | buttonUp _ | gamepadAdded _ | gamepadRemoved _ | resize _ _ | quit | mouseMotion =>
    exact h.elim

/-- No report both begins and ends an action. -/
theorem not_begins_of_ends (h : Ends es a e) : ¬Begins a e := by
  intro hbegins
  cases e with
  | hat x y => exact h.2 hbegins
  | keyUp _ | buttonUp _ => exact hbegins
  | keyDown _ | buttonDown _ | gamepadAdded _ | gamepadRemoved _ | resize _ _ | quit
  | mouseMotion => exact h

/-- A report that neither begins nor ends an action leaves it to its keys whether one is down. -/
theorem keyHolds_snoc (hbegins : ¬Begins a e) (hends : ¬Ends es a e) :
    KeyHolds (es ++ [e]) a ↔ KeyHolds es a := by
  -- the one report that matters to a key of the action, and yet does not end it, finds another down
  have hlifts {key : Json} (he : e = .keyUp key) (hkey : IsKeyOf a key) : KeyHolds (es ++ [e]) a := by
    subst he
    refine Classical.byContradiction fun hnone => ?_
    exact hends ⟨hkey, hnone⟩
  constructor
  · rintro ⟨k, hk, hdown⟩
    rcases since_snoc.1 hdown with hlower | ⟨hdown, -⟩
    · cases e with
      | keyDown key => exact absurd ⟨k, hk, hlower⟩ hbegins
      | _ => exact hlower.elim
    · exact ⟨k, hk, hdown⟩
  · rintro ⟨k, hk, hdown⟩
    by_cases hlift : Lifts k e
    · cases e with
      | keyUp key => exact hlifts rfl ⟨k, hk, hlift⟩
      | _ => exact hlift.elim
    · exact ⟨k, hk, since_snoc.2 (.inr ⟨hdown, hlift⟩)⟩

theorem buttonHolds_snoc (hbegins : ¬Begins a e) (hends : ¬Ends es a e) :
    ButtonHolds (es ++ [e]) a ↔ ButtonHolds es a := by
  refine exists_congr fun b => and_congr_right fun hb => ?_
  rw [since_snoc]
  constructor
  · rintro (rfl | ⟨hdown, -⟩)
    · exact absurd hb hbegins
    · exact hdown
  · intro hdown
    refine .inr ⟨hdown, ?_⟩
    rintro rfl
    exact hends hb

theorem isHatAction_of {x y : Int} (h : hatAction? x y = some a) : isHatAction a = true := by
  unfold hatAction? at h
  unfold isHatAction
  split at h
  · simp_all
  · split at h <;> simp_all

theorem padHolds_snoc (hbegins : ¬Begins a e) (hends : ¬Ends es a e) :
    PadHolds (es ++ [e]) a ↔ PadHolds es a := by
  refine exists_congr fun x => exists_congr fun y => and_congr_right fun hxy => ?_
  rw [since_snoc]
  constructor
  · rintro (rfl | ⟨hat, -⟩)
    · exact absurd hxy hbegins
    · exact hat
  · intro hat
    refine .inr ⟨hat, ?_⟩
    intro hmoves
    cases e with
    | hat x' y' => exact hends ⟨isHatAction_of hxy, hbegins⟩
    | _ => exact hmoves

/-- A report that neither begins nor ends an action makes no difference to whether it is held. -/
theorem held_snoc (hbegins : ¬Begins a e) (hends : ¬Ends es a e) :
    Held (es ++ [e]) a ↔ Held es a := by
  unfold Held
  rw [keyHolds_snoc hbegins hends, buttonHolds_snoc hbegins hends, padHolds_snoc hbegins hends]

end

/-! ## What the input does -/

section
variable {i : Input} {a : Action}

theorem mem_press {actions : List Action} :
    a ∈ (i.press actions).pressed ↔ a ∈ i.pressed ∨ a ∈ actions := by
  unfold press
  simp only
  generalize i.pressed = p
  induction actions generalizing p with
  | nil => simp
  | cons b bs ih =>
    rw [List.foldl_cons, ih, List.mem_cons]
    by_cases hb : b ∈ p
    · rw [if_pos hb]
      constructor
      · rintro (h | h)
        · exact .inl h
        · exact .inr (.inr h)
      · rintro (h | rfl | h)
        · exact .inl h
        · exact .inl hb
        · exact .inr h
    · rw [if_neg hb, List.mem_append, List.mem_singleton, or_assoc]

theorem mem_release {test : Action → Bool} :
    a ∈ (i.release test).pressed ↔ a ∈ i.pressed ∧ test a = false := by
  unfold release
  simp only [List.mem_filter, Bool.not_eq_true']

/-- No report changes the keys of an action. -/
theorem process_keys (e : DeviceEvent) : (i.process e).keys = i.keys := by
  cases e <;> rfl

/-- The actions of a key are those that it is a key of. -/
theorem mem_keyActions (hi : i.keys = defaultKeys) {key : Json} :
    a ∈ i.keyActions key ↔ IsKeyOf a key := by
  unfold keyActions IsKeyOf keysOf
  rw [hi]
  have hcomm : sameKey key = fun k => sameKey k key := funext (sameKey_comm key)
  cases a <;> simp [defaultKeys, Assoc.lookup_cons, hcomm]

/-- The keys of the input: the actions have the keys of the start, and those are held that are
down. -/
structure Tells (i : Input) (es : List DeviceEvent) : Prop where
  keys : i.keys = defaultKeys
  held : ∀ k, i.held.any (sameKey k) = true ↔ Since (Lowers k) (Lifts k) es

/-- A report that is about no key leaves those that are held. -/
theorem Tells.aside {es : List DeviceEvent} {e : DeviceEvent} {i' : Input} (h : i.Tells es)
    (hkeys : i'.keys = i.keys) (hheld : i'.held = i.held) (hlower : ∀ k, ¬Lowers k e)
    (hlift : ∀ k, ¬Lifts k e) : i'.Tells (es ++ [e]) where
  keys := hkeys.trans h.keys
  held k := by
    rw [hheld, h.held, since_snoc]
    constructor
    · intro hdown
      exact .inr ⟨hdown, hlift k⟩
    · rintro (hdown | ⟨hdown, -⟩)
      · exact absurd hdown (hlower k)
      · exact hdown

theorem Tells.process {es : List DeviceEvent} (h : i.Tells es) (e : DeviceEvent) :
    (i.process e).Tells (es ++ [e]) := by
  cases e with
  | keyDown key =>
    refine ⟨h.keys, fun k => ?_⟩
    rw [since_snoc, ← h.held]
    show (List.any (if _ then _ else _) _ = true) ↔ _
    split
    · next hthere =>
      constructor
      · intro hk
        exact .inr ⟨hk, id⟩
      · rintro (hsame | ⟨hk, -⟩)
        · obtain ⟨k', hk', hkey⟩ := List.any_eq_true.1 hthere
          exact List.any_eq_true.2 ⟨k', hk', sameKey_trans hsame hkey⟩
        · exact hk
    · rw [List.any_append, Bool.or_eq_true, or_comm]
      simp [Lowers, Lifts]
  | keyUp key =>
    refine ⟨h.keys, fun k => ?_⟩
    rw [since_snoc, ← h.held]
    show List.any (List.filter _ _) _ = true ↔ _
    simp only [List.any_eq_true, List.mem_filter, Bool.not_eq_true']
    constructor
    · rintro ⟨k', ⟨hk', hkey⟩, hsame⟩
      refine .inr ⟨⟨k', hk', hsame⟩, ?_⟩
      intro hlift
      rw [sameKey_trans (by rw [sameKey_comm]; exact hlift) hsame] at hkey
      cases hkey
    · rintro (hlower | ⟨⟨k', hk', hsame⟩, hlift⟩)
      · exact hlower.elim
      · refine ⟨k', ⟨hk', ?_⟩, hsame⟩
        rw [Bool.eq_false_iff]
        intro hkey
        exact hlift (sameKey_trans hsame (by rw [sameKey_comm]; exact hkey))
  | _ => exact h.aside rfl rfl (fun _ => id) (fun _ => id)

theorem afterAll_snoc (pads : List Int) (es : List DeviceEvent) (e : DeviceEvent) :
    afterAll pads (es ++ [e]) = (afterAll pads es).process e := by
  unfold afterAll
  rw [List.foldl_append]
  rfl

theorem tells_afterAll (pads : List Int) (es : List DeviceEvent) : (afterAll pads es).Tells es := by
  induction es using List.reverseRecOn with
  | nil => exact ⟨rfl, fun k => by simp [afterAll, start, since_nil]⟩
  | append_singleton es e ih =>
    rw [afterAll_snoc]
    exact ih.process e

/-- After a key has come up, the input asks for another key of the action that is down. -/
theorem heldBesides_iff {es : List DeviceEvent} {key : Json}
    (h : i.Tells (es ++ [.keyUp key])) : i.heldBesides key a = true ↔
      KeyHolds (es ++ [.keyUp key]) a := by
  unfold heldBesides bindings KeyHolds keysOf
  rw [h.keys, List.any_eq_true]
  refine exists_congr fun k => and_congr_right fun hk => ?_
  rw [Bool.and_eq_true, h.held, Bool.not_eq_true']
  constructor
  · rintro ⟨-, hdown⟩
    exact hdown
  · intro hdown
    refine ⟨Bool.eq_false_iff.2 fun hkey => ?_, hdown⟩
    rcases since_snoc.1 hdown with hlower | ⟨-, hlift⟩
    · exact hlower
    · exact hlift hkey

/-- **The last word counts.** After one more report an action is pressed if the report begins it, or
if it was pressed and the report does not end it. -/
theorem pressed_snoc {pads : List Int} {es : List DeviceEvent} {e : DeviceEvent} :
    a ∈ (afterAll pads (es ++ [e])).pressed ↔
      Begins a e ∨ a ∈ (afterAll pads es).pressed ∧ ¬Ends es a e := by
  have htells := tells_afterAll pads es
  have hnext := htells.process e
  rw [afterAll_snoc]
  cases e with
  | keyDown key =>
    show a ∈ (press _ _).pressed ↔ _
    rw [mem_press, or_comm]
    exact or_congr (mem_keyActions htells.keys) ⟨fun h => ⟨h, id⟩, And.left⟩
  | keyUp key =>
    -- the input asks for other keys once the key is no longer among those that are held
    have hlast : (Input.mk (afterAll pads es).keys _ _ _ _ _ _).Tells _ := ⟨hnext.keys, hnext.held⟩
    have hmem : a ∈ keyActions _ key ↔ IsKeyOf a key := mem_keyActions hlast.keys
    have hbesides := heldBesides_iff (a := a) hlast
    show a ∈ (release _ _).pressed ↔ _
    rw [mem_release, ← Bool.not_eq_true, Bool.and_eq_true, List.contains_iff_mem, Bool.not_eq_true',
      ← Bool.not_eq_true]
    refine Iff.trans ?_ (false_or _).symm.to_iff
    refine and_congr_right fun _ => not_congr (and_congr hmem (not_congr hbesides))
  | buttonDown b =>
    show a ∈ (press _ _).pressed ↔ _
    rw [mem_press, or_comm]
    exact or_congr Iff.rfl ⟨fun h => ⟨h, id⟩, And.left⟩
  | buttonUp b =>
    show a ∈ (release _ _).pressed ↔ _
    rw [mem_release]
    simp [Begins, Ends]
  | hat x y =>
    show a ∈ (press _ _).pressed ↔ _
    rw [mem_press, mem_release, Option.mem_toList, or_comm, ← Bool.not_eq_true]
    show hatAction? x y = some a ∨ _ ↔ hatAction? x y = some a ∨ _ ∧ ¬(_ ∧ _)
    by_cases hxy : hatAction? x y = some a
    · simp [hxy]
    · simp [hxy]
  | _ => simp [Begins, Ends, Input.process]

/-! ## What is pressed is held -/

variable {pads : List Int} {es : List DeviceEvent} {e : DeviceEvent}

/-- A report that ends an action leaves it unpressed. -/
theorem not_pressed_of_ends (h : Ends es a e) : a ∉ (afterAll pads (es ++ [e])).pressed := by
  rw [pressed_snoc]
  rintro (hbegins | ⟨-, hends⟩)
  · exact not_begins_of_ends h hbegins
  · exact hends h

/-- What is pressed is held. -/
theorem held_of_pressed (h : a ∈ (afterAll pads es).pressed) : Held es a := by
  induction es using List.reverseRecOn with
  | nil => simp [afterAll, start] at h
  | append_singleton es e ih =>
    by_cases hbegins : Begins a e
    · exact held_of_begins hbegins
    · obtain ⟨hpressed, hends⟩ := (pressed_snoc.1 h).resolve_left hbegins
      exact (held_snoc hbegins hends).2 (ih hpressed)

/-- As long as no device overrules another, what is held is pressed. -/
theorem pressed_iff_held (h : ∀ before e, before ++ [e] <+: es → ¬Overrules before e a) :
    a ∈ (afterAll pads es).pressed ↔ Held es a := by
  refine ⟨held_of_pressed, ?_⟩
  induction es using List.reverseRecOn with
  | nil =>
    rintro (⟨_, _, hnil⟩ | ⟨_, _, hnil⟩ | ⟨_, _, _, hnil⟩) <;> exact absurd hnil since_nil
  | append_singleton es e ih =>
    intro hheld
    rw [pressed_snoc]
    by_cases hbegins : Begins a e
    · exact .inl hbegins
    · have hends : ¬Ends es a e := by
        intro hends
        exact h es e (List.prefix_refl _) ⟨hends, hheld⟩
      refine .inr ⟨ih ?_ ((held_snoc hbegins hends).1 hheld), hends⟩
      intro before e' hbefore
      exact h before e' (hbefore.trans (List.prefix_append _ _))

/-- An action is pressed if and only if it was begun and has not been ended since. -/
theorem pressed_iff_begun : a ∈ (afterAll pads es).pressed ↔
    ∃ before e after, es = before ++ e :: after ∧ Begins a e ∧
      ∀ mid e', mid ++ [e'] <+: after → ¬Ends (before ++ e :: mid) a e' := by
  show _ ↔ Lasts (Begins a) (fun before => Ends before a) es
  induction es using List.reverseRecOn with
  | nil => simp [afterAll, start, Lasts]
  | append_singleton es e ih => rw [pressed_snoc, lasts_snoc, ih]

/-- **Actions are pressed while they are held.** Whatever the devices report, an action that is
pressed is held. That an action is pressed after every report if and only if it is held then, is so
if and only if no report of one device ends it while another device still holds it. And after any
reports it is pressed if and only if it was begun and has not been ended since, by whatever
device. -/
theorem actions_are_pressed_while_held (pads : List Int) (es : List DeviceEvent) (a : Action) :
    (a ∈ (afterAll pads es).pressed → Held es a) ∧
    ((∀ before, before <+: es → (a ∈ (afterAll pads before).pressed ↔ Held before a)) ↔
      ∀ before e, before ++ [e] <+: es → ¬Overrules before e a) ∧
    (a ∈ (afterAll pads es).pressed ↔ ∃ before e after, es = before ++ e :: after ∧ Begins a e ∧
      ∀ mid e', mid ++ [e'] <+: after → ¬Ends (before ++ e :: mid) a e') := by
  refine ⟨held_of_pressed, ⟨?_, ?_⟩, pressed_iff_begun⟩
  · intro hall before e hbefore ⟨hends, hheld⟩
    exact not_pressed_of_ends hends ((hall _ hbefore).2 hheld)
  · intro hnone before hbefore
    refine pressed_iff_held ?_
    intro before' e hbefore'
    exact hnone before' e (hbefore'.trans hbefore)

/-- The button of the gamepad ends the action that the return key still holds. -/
example : Action.confirm ∉ (afterAll [] [.keyDown (.int 13), .buttonDown 0, .buttonUp 0]).pressed := by
  decide

end

end Input
end VisualNovel
