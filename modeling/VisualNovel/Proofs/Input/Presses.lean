import Mathlib.Data.List.Chain
import VisualNovel.Proofs.Input.Holding
/-!
# What updates publish

An update publishes what has changed since the one before, and it goes by what is pressed by then.
In between any number of reports may come in. So a press counts only if nothing has released the
action since: the last word on it must be a press. One that is released before the update is never
published.

An input remembers which actions were pressed at its last update. What is pressed may come about in
any way: a device may end an action that another one holds, and a key may be bound or unbound while
it is down. A press is published only of an action that the last update left unpressed, and a release
only of one that it left pressed; so they take turns. A handler that binds a key while an update
publishes might as well do so behind it, since an update does not look at the keys.

Results:
* `mem_process`: when an action is pressed after one more report, whatever the bindings are.
* `mem_takeIn`: when it is pressed after any reports, by induction over them.
* `presses_are_published_iff`: which of the presses between two updates are published, and that
  none is published twice.
* `edges_changes`: what an update publishes of one action.
* `Marked.obey`, `Marked.after`: what is remembered is what was published last, order by order.
* `edges_alternate`: the presses and releases of an action take turns, and the last of them tells
  whether it was pressed at the last update.
-/
namespace VisualNovel
namespace Input

/-- The input after the devices have reported. -/
def takeIn (i : Input) (es : List DeviceEvent) : Input := es.foldl (fun i e => i.process e) i

/-- A report that presses an action, by the bindings of the input. -/
def Presses (i : Input) (a : Action) : DeviceEvent → Prop
  | .keyDown key => a ∈ i.keyActions key
  | .buttonDown b => a ∈ buttonActions b
  | .hat x y => hatAction? x y = some a
  | _ => False

/-- A report that releases an action: a key of it comes up and no other one is down, or a button of
it comes up, or the pad is moved elsewhere. -/
def Releases (i : Input) (a : Action) : DeviceEvent → Prop
  | .keyUp key => a ∈ i.keyActions key ∧ i.heldBesides key a = false
  | .buttonUp b => a ∈ buttonActions b
  | .hat x y => isHatAction a = true ∧ hatAction? x y ≠ some a
  | _ => False

/-- One of these reports presses the action, and none after it releases it. -/
def PressedIn (i : Input) (a : Action) : List DeviceEvent → Prop :=
  Lasts (Presses i a) fun before => Releases (i.takeIn before) a

variable {i : Input} {a : Action} {es : List DeviceEvent} {e : DeviceEvent}

/-! ## Reports -/

/-- That a key comes up makes no difference to whether another one is down. -/
theorem heldBesides_lift {key : Json} :
    heldBesides { i with held := i.held.filter (!sameKey key ·) } key a = i.heldBesides key a := by
  unfold heldBesides bindings
  congr 1
  funext other
  cases hother : sameKey other key with
  | true => rfl
  | false =>
    have hkeeps (k : Json) : ((!sameKey key k) && sameKey other k) = sameKey other k := by
      cases hk : sameKey other k with
      | false => rw [Bool.and_false]
      | true =>
        have hne : sameKey key k = false := by
          rw [Bool.eq_false_iff] at hother ⊢
          intro hsame
          exact hother (sameKey_trans hk (by rwa [sameKey_comm]))
        rw [hne]
        rfl
    simp only [List.any_filter, hkeeps]

/-- After one more report an action is pressed if the report presses it, or if it was pressed and
the report does not release it. -/
theorem mem_process :
    a ∈ (i.process e).pressed ↔ Presses i a e ∨ a ∈ i.pressed ∧ ¬Releases i a e := by
  cases e with
  | keyDown key =>
    show a ∈ (press _ _).pressed ↔ _
    rw [mem_press, or_comm]
    simp [Presses, Releases]
  | keyUp key =>
    have hkeys : keyActions { i with held := i.held.filter (!sameKey key ·) } key =
        i.keyActions key := rfl
    show a ∈ (release _ _).pressed ↔ _
    rw [mem_release, heldBesides_lift, hkeys]
    simp [Presses, Releases]
  | buttonDown b =>
    show a ∈ (press _ _).pressed ↔ _
    rw [mem_press, or_comm]
    simp [Presses, Releases]
  | buttonUp b =>
    show a ∈ (release _ _).pressed ↔ _
    rw [mem_release]
    simp [Presses, Releases]
  | hat x y =>
    show a ∈ (press _ _).pressed ↔ _
    rw [mem_press, mem_release, Option.mem_toList, or_comm]
    by_cases hxy : hatAction? x y = some a
    · simp [Presses, hxy]
    · simp [Presses, Releases, hxy]
  | _ => simp [Presses, Releases, Input.process]

/-! ## Between two updates -/

theorem takeIn_snoc : i.takeIn (es ++ [e]) = (i.takeIn es).process e := by
  unfold takeIn
  rw [List.foldl_append]
  rfl

theorem process_previous : (i.process e).previous = i.previous := by
  cases e <;> rfl

theorem takeIn_keys (i : Input) (es : List DeviceEvent) : (i.takeIn es).keys = i.keys := by
  induction es using List.reverseRecOn with
  | nil => rfl
  | append_singleton es e ih => rw [takeIn_snoc, process_keys, ih]

theorem takeIn_previous (i : Input) (es : List DeviceEvent) :
    (i.takeIn es).previous = i.previous := by
  induction es using List.reverseRecOn with
  | nil => rfl
  | append_singleton es e ih => rw [takeIn_snoc, process_previous, ih]

/-- What presses an action is a matter of the bindings alone. -/
theorem presses_takeIn (i : Input) (es : List DeviceEvent) :
    Presses (i.takeIn es) a e ↔ Presses i a e := by
  cases e with
  | keyDown key =>
    unfold Presses keyActions
    rw [takeIn_keys]
  | _ => rfl

/-- An action that was not pressed is, after any reports, if one of them pressed it and none has
released it since. -/
theorem mem_takeIn (h : a ∉ i.pressed) (es : List DeviceEvent) :
    a ∈ (i.takeIn es).pressed ↔ PressedIn i a es := by
  induction es using List.reverseRecOn with
  | nil => simpa [takeIn, PressedIn, Lasts] using h
  | append_singleton es e ih =>
    rw [takeIn_snoc, mem_process, presses_takeIn, PressedIn, lasts_snoc, ih, PressedIn]

theorem mem_changes_update :
    .actionPressed a ∈ i.update.changes ↔ a ∈ i.pressed ∧ a ∉ i.previous := by
  have hall : a ∈ Action.all := by cases a <;> decide
  unfold changes update
  simp [Notice.actionPressed, Notice.actionReleased, hall]

/-- An update publishes nothing twice. -/
theorem nodup_changes_update : i.update.changes.Nodup := by
  have hmap (test : Action → Bool) {f : Action → Notice} (hf : ∀ a b, f a = f b → a = b) :
      ((Action.all.filter test).map f).Nodup := by
    have hall : Action.all.Nodup := by decide
    have hsome : (Action.all.filter test).Nodup := List.Pairwise.filter test hall
    exact List.Pairwise.map f (fun a b hne heq => hne (hf a b heq)) hsome
  unfold changes update
  dsimp only
  refine List.nodup_append.2 ⟨hmap _ ?_, hmap _ ?_, fun n hn m hm heq => ?_⟩
  · rintro a b ⟨⟩
    rfl
  · rintro a b ⟨⟩
    rfl
  · obtain ⟨a, -, rfl⟩ := List.mem_map.1 hn
    obtain ⟨b, -, rfl⟩ := List.mem_map.1 hm
    cases heq

/-- **The last word is published.** If an action is not pressed at an update, the next one publishes
that it is pressed if and only if a report in between has pressed it and none after that has
released it; and it publishes nothing twice. So a press is lost if a release comes before the
update. -/
theorem presses_are_published_iff (h : a ∉ i.pressed) (es : List DeviceEvent) :
    let changes := (i.update.takeIn es).update.changes
    (.actionPressed a ∈ changes ↔ PressedIn i.update a es) ∧ changes.Nodup := by
  have hprevious : (i.update.takeIn es).previous = i.pressed := takeIn_previous _ es
  refine ⟨?_, nodup_changes_update⟩
  have hstill : a ∉ i.update.pressed := h
  rw [mem_changes_update, hprevious, mem_takeIn hstill]
  exact and_iff_left h

/-- The return key goes down, comes up, and goes down again. -/
theorem return_key_is_published : let i := start []
    let es := [.keyDown (.int 13), .keyUp (.int 13), .keyDown (.int 13)]
    let changes := (i.update.takeIn es).update.changes
    Action.confirm ∉ i.pressed ∧ .actionPressed .confirm ∈ changes ∧
      PressedIn i.update .confirm es ∧ changes.Nodup := by
  intro i es changes
  have hpressed : Action.confirm ∉ i.pressed := by decide
  have hpublished : .actionPressed .confirm ∈ changes := by decide
  obtain ⟨hiff, hnodup⟩ := presses_are_published_iff hpressed es
  exact ⟨hpressed, hpublished, hiff.1 hpublished, hnodup⟩

/-- A key that goes down and comes up between two updates is not noticed. -/
example :
    ((start []).update.takeIn [.keyDown (.int 13), .keyUp (.int 13)]).update.changes = [] := by
  decide

/-! ## Presses and releases -/

/-- What is done with an input. -/
inductive Order where
  | report (e : DeviceEvent)
  | bind (a : Action) (key : Json)
  | unbind (a : Action) (key : Json)
  | update

/-- Does what is asked. A report that cannot be taken in is refused, and so is a key that nothing can
be looked up by. -/
def obey (o : Order) (i : Input) : Input :=
  match o with
  | .report e => if e.misfit?.isSome then i else i.process e
  | .bind a key => if key.isKey then i.bind a key else i
  | .unbind a key => i.unbind a key
  | .update => i.update

/-- What is published when it is done. -/
def tells (o : Order) (i : Input) : List Notice :=
  match o with
  | .report e => if e.misfit?.isSome then [] else noticesOf e
  | .bind _ _ | .unbind _ _ => []
  | .update => i.update.changes

/-- The input after orders. -/
def after (i : Input) (orders : List Order) : Input := orders.foldl (fun i o => i.obey o) i

/-- All that is published while orders are carried out. -/
def told (i : Input) : List Order → List Notice
  | [] => []
  | o :: orders => i.tells o ++ (i.obey o).told orders

/-- What a notice tells of an action: that it was pressed, or that it was released. -/
def edge? (a : Action) (n : Notice) : Option Bool :=
  if n = .actionPressed a then some true
  else if n = .actionReleased a then some false
  else none

/-- The presses and releases of an action among notices. -/
def edges (a : Action) (ns : List Notice) : List Bool := ns.filterMap (edge? a)

/-- Presses and releases take turns, and a press comes first. -/
structure Alternates (es : List Bool) : Prop where
  first : ∀ e ∈ es.head?, e = true
  next : es.IsChain (· ≠ ·)

theorem Alternates.nil : Alternates [] := ⟨by simp, List.isChain_nil⟩

/-- Another one comes behind the last, a press if there is none. -/
theorem Alternates.snoc {es : List Bool} {e : Bool} (h : Alternates es)
    (hlast : es.getLast?.getD false = !e) : Alternates (es ++ [e]) where
  first := by
    cases es with
    | nil => simpa using hlast
    | cons _ _ => exact h.first
  next := by
    refine List.isChain_append.2 ⟨h.next, List.isChain_singleton _, ?_⟩
    intro x hx y hy
    rw [Option.mem_def.1 hx] at hlast
    obtain rfl : e = y := by simpa using hy
    cases e <;> simpa using hlast

variable {o : Order} {ns : List Notice}

/-! ## What is published of one action -/

theorem edges_append (ms : List Notice) : edges a (ns ++ ms) = edges a ns ++ edges a ms :=
  List.filterMap_append

/-- Of a group of notices, one for each action that satisfies a test, one is about the action if it
satisfies the test. -/
theorem edges_group {f : Action → Notice} {e : Bool}
    (hf : ∀ b, edge? a (f b) = if b = a then some e else none) (test : Action → Bool) :
    edges a ((Action.all.filter test).map f) = if test a then [e] else [] := by
  have hone (b : Action) : (if test b then edge? a (f b) else none) =
      if b = a then (if test a then some e else none) else none := by
    rw [hf]
    by_cases hb : b = a <;> simp [hb]
  unfold edges
  rw [List.filterMap_map, List.filterMap_filter]
  simp only [Function.comp_apply, hone]
  cases test a <;> cases a <;> rfl

theorem edge?_actionPressed (b : Action) :
    edge? a (.actionPressed b) = if b = a then some true else none := by
  by_cases hb : b = a <;> simp [edge?, Notice.actionPressed, Notice.actionReleased, hb]

theorem edge?_actionReleased (b : Action) :
    edge? a (.actionReleased b) = if b = a then some false else none := by
  by_cases hb : b = a <;> simp [edge?, Notice.actionPressed, Notice.actionReleased, hb]

/-- An update publishes one thing of an action that has changed since the last update, and nothing
of any other. -/
theorem edges_changes : edges a i.update.changes =
    if i.pressed.contains a = i.previous.contains a then [] else [i.pressed.contains a] := by
  unfold changes update
  dsimp only
  rw [edges_append, edges_group edge?_actionPressed, edges_group edge?_actionReleased]
  cases i.pressed.contains a <;> cases i.previous.contains a <;> rfl

/-! ## Order by order -/

/-- What was published of an action is in turns, and the last of it tells whether the input remembers
the action as pressed. -/
structure Marked (a : Action) (ns : List Notice) (i : Input) : Prop where
  turns : Alternates (edges a ns)
  last : (edges a ns).getLast?.getD false = i.previous.contains a

theorem marked_start (pads : List Int) : Marked a [] (start pads) := ⟨.nil, rfl⟩

/-- Only an update changes what is remembered, and nothing else tells of an action. -/
theorem obey_aside (h : o ≠ .update) :
    (i.obey o).previous = i.previous ∧ edges a (i.tells o) = [] := by
  cases o with
  | report e =>
    have hnotices : edges a (noticesOf e) = [] := by cases e <;> rfl
    unfold obey tells
    dsimp only
    by_cases he : e.misfit?.isSome = true
    · rw [if_pos he, if_pos he]
      exact ⟨rfl, rfl⟩
    · rw [if_neg he, if_neg he]
      exact ⟨process_previous, hnotices⟩
  | bind b key =>
    refine ⟨?_, rfl⟩
    have hbind : (i.bind b key).previous = i.previous := by
      unfold bind
      split <;> rfl
    unfold obey
    dsimp only
    split
    · exact hbind
    · rfl
  | unbind b key => exact ⟨rfl, rfl⟩
  | update => exact absurd rfl h

/-- An update publishes the press or the release that brings what was published last up to what is
pressed. -/
theorem Marked.update (h : Marked a ns i) : Marked a (ns ++ i.update.changes) i.update := by
  have hprevious : i.update.previous = i.pressed := rfl
  constructor
  · rw [edges_append, edges_changes]
    split
    · rw [List.append_nil]
      exact h.turns
    · next hne =>
      refine h.turns.snoc ?_
      rw [h.last]
      exact (Bool.eq_not.2 (Ne.symm hne))
  · rw [hprevious, edges_append, edges_changes]
    split
    · next heq => rw [List.append_nil, h.last, heq]
    · rw [List.getLast?_concat, Option.getD_some]

theorem Marked.obey (h : Marked a ns i) (o : Order) : Marked a (ns ++ i.tells o) (i.obey o) := by
  by_cases ho : o = .update
  · subst ho
    exact h.update
  · obtain ⟨hprevious, hedges⟩ := obey_aside (a := a) (i := i) ho
    refine ⟨?_, ?_⟩
    · rw [edges_append, hedges, List.append_nil]
      exact h.turns
    · rw [edges_append, hedges, List.append_nil, hprevious]
      exact h.last

/-- Whatever is done with an input, it remembers what was published last. -/
theorem Marked.after (h : Marked a ns i) (orders : List Order) :
    Marked a (ns ++ i.told orders) (i.after orders) := by
  induction orders generalizing i ns with
  | nil =>
    rw [told, List.append_nil]
    exact h
  | cons o orders ih =>
    rw [told, ← List.append_assoc]
    exact ih (h.obey o)

theorem after_snoc (i : Input) (orders : List Order) (o : Order) :
    i.after (orders ++ [o]) = (i.after orders).obey o := by
  unfold after
  rw [List.foldl_append]
  rfl

/-- Presses come before releases, and each in the order of the actions. -/
theorem changes_sublist (i : Input) : i.update.changes.Sublist
    (Action.all.map .actionPressed ++ Action.all.map .actionReleased) :=
  .append (.map _ List.filter_sublist) (.map _ List.filter_sublist)

/-- **Presses and releases take turns.** Whatever the devices report, and however keys are bound and
unbound in between, what is published of an action are presses and releases in turns, a press first.
Another update publishes at most one of them; what has been published last by then is a press if and
only if the action is pressed at that update; and all its presses come before its releases, each in
the order of the actions. -/
theorem edges_alternate (pads : List Int) (orders : List Order) (a : Action) :
    let i := (start pads).after orders
    Alternates (edges a ((start pads).told orders)) ∧
    (edges a i.update.changes).length ≤ 1 ∧
    ((edges a ((start pads).told (orders ++ [.update]))).getLast? = some true ↔ a ∈ i.pressed) ∧
    i.update.changes.Sublist
      (Action.all.map .actionPressed ++ Action.all.map .actionReleased) := by
  intro i
  have hmarked := (marked_start (a := a) pads).after orders
  have hlast := ((marked_start (a := a) pads).after (orders ++ [.update])).last
  rw [List.nil_append, after_snoc] at hlast
  refine ⟨hmarked.turns, ?_, ?_, changes_sublist i⟩
  · rw [edges_changes]
    split <;> simp
  · have hpressed : (i.obey .update).previous = i.pressed := rfl
    rw [hpressed] at hlast
    rw [← List.contains_iff_mem, ← hlast]
    cases (edges a ((start pads).told (orders ++ [.update]))).getLast? <;> simp

/-- The button of the gamepad ends the action that the return key still holds, and it is pressed
again by another key: a press, a release and a press. -/
example : (start []).told [.report (.keyDown (.int 13)), .report (.buttonDown 0), .update,
    .report (.buttonUp 0), .update, .update, .report (.keyDown (.int 32)), .update] =
      [.actionPressed .confirm, .actionReleased .confirm, .actionPressed .confirm] := by
  decide

end Input
end VisualNovel
