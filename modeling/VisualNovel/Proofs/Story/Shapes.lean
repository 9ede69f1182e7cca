import Mathlib.Data.List.Forall2
import VisualNovel.Story.Format
/-!
# What the shape of a story says

A value that was read as a line, a choice, a node or a story is an object, and its members are what
was read from them: a list that was left out counts as an empty one (`Lists`), and a start that was
left out as the first node.
-/
namespace VisualNovel.Story

/-- A list is read from a member item by item, and as an empty one from a member left out. -/
def Lists {α : Type} (read : Json → Option α) (member : Option Json) (xs : List α) : Prop :=
  (member = none ∧ xs = []) ∨
    ∃ items, member = some (.arr items) ∧ List.Forall₂ (fun j x => read j = some x) items xs

theorem mapM_eq_some_iff {α β : Type} {read : α → Option β} {items : List α} {xs : List β} :
    items.mapM read = some xs ↔ List.Forall₂ (fun j x => read j = some x) items xs := by
  induction items generalizing xs with
  | nil => simp [eq_comm]
  | cons j items ih =>
    rw [List.mapM_cons]
    constructor
    · intro h
      obtain ⟨x, hx, h⟩ := Option.bind_eq_some_iff.1 h
      obtain ⟨ys, hys, h⟩ := Option.bind_eq_some_iff.1 h
      cases h
      exact .cons hx (ih.1 hys)
    · rintro (_ | ⟨hx, hxs⟩)
      simp [hx, ih.2 hxs]

theorem optional_list?_iff {α : Type} {read : Json → Option α} {member : Option Json}
    {xs : List α} : optional (list? read) [] member = some xs ↔ Lists read member xs := by
  unfold optional Lists
  cases member with
  | none => simp [eq_comm]
  | some j =>
    cases j with
    | arr items => simp [list?, mapM_eq_some_iff]
    | _ => simp [list?]

theorem closedObject?_eq_some {names : List String} {j : Json} {members : List (String × Json)}
    (h : closedObject? names j = some members) : j = .obj members := by
  unfold closedObject? at h
  split at h
  · split at h
    · cases h
      rfl
    · cases h
  · cases h

theorem text?_eq_some {j : Json} {s : String} (h : text? j = some s) : j = .str s := by
  cases j <;> cases h
  rfl

theorem name?_eq_some {j : Json} {s : String} (h : name? j = some s) : j = .str s ∧ s ≠ "" := by
  cases j with
  | str t =>
    rw [name?, Option.ite_none_left_eq_some] at h
    obtain ⟨hne, ht⟩ := h
    cases ht
    exact ⟨rfl, hne⟩
  | _ => cases h

theorem target?_eq_some {j : Json} {t : Option String} (h : target? j = some t) :
    j = t.elim .null .str := by
  cases j <;> cases h <;> rfl

/-! ## Members -/

/-- The members of what was read as a line. -/
theorem Line.members_of_ofJson? {j : Json} {l : Line} (h : Line.ofJson? j = some l) :
    ∃ members, j = .obj members ∧ members.lookup "text" = some (.str l.text) ∧
      Lists text? (members.lookup "tags") l.tags := by
  obtain ⟨members, hclosed, h⟩ := Option.bind_eq_some_iff.1 h
  obtain ⟨j, htext, h⟩ := Option.bind_eq_some_iff.1 h
  obtain ⟨text, hread, h⟩ := Option.bind_eq_some_iff.1 h
  obtain ⟨tags, htags, h⟩ := Option.bind_eq_some_iff.1 h
  cases h
  exact ⟨members, closedObject?_eq_some hclosed, htext.trans (by rw [text?_eq_some hread]),
    optional_list?_iff.1 htags⟩

/-- The members of what was read as a choice. -/
theorem Branch.members_of_ofJson? {j : Json} {b : Branch} (h : Branch.ofJson? j = some b) :
    ∃ members, j = .obj members ∧ members.lookup "text" = some (.str b.text) ∧
      members.lookup "next" = some (.str b.next) ∧ b.next ≠ "" := by
  obtain ⟨members, hclosed, h⟩ := Option.bind_eq_some_iff.1 h
  obtain ⟨j, htext, h⟩ := Option.bind_eq_some_iff.1 h
  obtain ⟨text, hread, h⟩ := Option.bind_eq_some_iff.1 h
  obtain ⟨j', hnext, h⟩ := Option.bind_eq_some_iff.1 h
  obtain ⟨next, hname, h⟩ := Option.bind_eq_some_iff.1 h
  cases h
  obtain ⟨rfl, hne⟩ := name?_eq_some hname
  exact ⟨members, closedObject?_eq_some hclosed, htext.trans (by rw [text?_eq_some hread]), hnext,
    hne⟩

/-- The members of what was read as a node. -/
theorem Node.members_of_ofJson? {j : Json} {n : Node} (h : Node.ofJson? j = some n) :
    ∃ members, j = .obj members ∧ members.lookup "id" = some (.str n.id) ∧
      Lists Line.ofJson? (members.lookup "lines") n.lines ∧
      Lists Branch.ofJson? (members.lookup "choices") n.choices ∧
      (members.lookup "next").getD .null = n.next.elim .null .str := by
  obtain ⟨members, hclosed, h⟩ := Option.bind_eq_some_iff.1 h
  obtain ⟨j, hid, h⟩ := Option.bind_eq_some_iff.1 h
  obtain ⟨id, hname, h⟩ := Option.bind_eq_some_iff.1 h
  obtain ⟨lines, hlines, h⟩ := Option.bind_eq_some_iff.1 h
  obtain ⟨choices, hchoices, h⟩ := Option.bind_eq_some_iff.1 h
  obtain ⟨next, hnext, h⟩ := Option.bind_eq_some_iff.1 h
  cases h
  obtain ⟨rfl, -⟩ := name?_eq_some hname
  refine ⟨members, closedObject?_eq_some hclosed, hid, optional_list?_iff.1 hlines,
    optional_list?_iff.1 hchoices, ?_⟩
  unfold optional at hnext
  split at hnext
  · next hnone =>
    cases hnext
    rw [hnone]
    rfl
  · next j hsome =>
    rw [hsome]
    exact target?_eq_some hnext

/-- The members of what was read as a story. -/
theorem Graph.members_of_ofShape? {j : Json} {g : Graph} (h : Graph.ofShape? j = some g) :
    ∃ members items first rest, j = .obj members ∧ members.lookup "nodes" = some (.arr items) ∧
      g.nodes = first :: rest ∧
      List.Forall₂ (fun j n => Node.ofJson? j = some n) items (first :: rest) ∧
      (members.lookup "id").getD (.str "story") = .str g.id ∧
      ((members.lookup "start" = none ∧ g.start = first.id) ∨
        (members.lookup "start" = some (.str g.start) ∧ g.start ≠ "")) := by
  unfold Graph.ofShape? at h
  split at h
  next members =>
    obtain ⟨j, hlookup, h⟩ := Option.bind_eq_some_iff.1 h
    obtain ⟨⟨first, rest⟩, hnodes, h⟩ := Option.bind_eq_some_iff.1 h
    obtain ⟨id, hid, h⟩ := Option.bind_eq_some_iff.1 h
    obtain ⟨start, hstart, h⟩ := Option.bind_eq_some_iff.1 h
    cases h
    obtain ⟨ns, hlist, hnodes⟩ := Option.bind_eq_some_iff.1 hnodes
    cases j with
    | arr items =>
      cases ns with
      | nil => cases hnodes
      | cons n ns =>
        cases hnodes
        refine ⟨members, items, _, _, rfl, hlookup, rfl, mapM_eq_some_iff.1 hlist, ?_, ?_⟩
        · unfold optional at hid
          split at hid
          · next hnone =>
            cases hid
            rw [hnone]
            rfl
          · next j hsome =>
            rw [hsome]
            exact text?_eq_some hid
        · unfold optional at hstart
          split at hstart
          · next hnone =>
            cases hstart
            exact .inl ⟨hnone, rfl⟩
          · next j hsome =>
            obtain ⟨rfl, hne⟩ := name?_eq_some hstart
            exact .inr ⟨hsome, hne⟩
    | _ => cases hlist
  · cases h

end VisualNovel.Story
