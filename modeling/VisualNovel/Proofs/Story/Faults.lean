import Mathlib.Data.List.DropRight
import VisualNovel.Proofs.Story.Passages
import VisualNovel.Proofs.Story.Printing
/-!
# Scripts that are refused

A line of dialogue must not stand in a node that has a choice, nor a divert in a node that goes on
already (`Fault`). What stands in a node is told from the statements themselves: those behind the
last header (`recent`). A draft that has taken in some statements holds just that of its node
(`TakenIn`), and so it refuses a statement exactly if that is a fault (`TakenIn.add_eq_error_iff`).

Results:
* `addAll_of_faultless`, `addAll_of_firstFault`: statements are taken in up to the first fault.
* `scripts_are_refused_iff_ill_formed`: a script is refused for its first fault, with its line;
  without a fault it is refused if two of its nodes have one id; else it compiles.
-/
namespace VisualNovel.Story

/-! ## Faults -/

/-- The statements in the node at the end, so far. -/
def recent (before : List Statement) : List Statement := before.rtakeWhile (·.header.isNone)

/-- The id of the node at the end: that of the last header. -/
def nodeAt (before : List Statement) : String :=
  ((before.filterMap Statement.header).getLast?).getD "start"

/-- A statement that must not stand where it does, and how it is refused. -/
inductive Fault (before : List Statement) : Statement → ScriptError → Prop
  | afterChoice {text tags offer target} : .choice offer target ∈ recent before →
    Fault before (.dialogue text tags) (.lineAfterChoice (before.length + 1) (nodeAt before))
  | secondDivert {target next} : .divert next ∈ recent before →
    Fault before (.divert target) (.continuesTwice (before.length + 1) (nodeAt before) next)

/-- No statement is a fault. -/
def Faultless (ss : List Statement) : Prop :=
  ∀ before s after e, ss = before ++ s :: after → ¬Fault before s e

/-- How the first fault is refused. -/
def FirstFault (ss : List Statement) (e : ScriptError) : Prop :=
  ∃ before s after, ss = before ++ s :: after ∧ Faultless before ∧ Fault before s e

section
variable {ss : List Statement} {s : Statement} {e : ScriptError}

theorem faultless_nil : Faultless [] := by
  intro before s after e h
  simp at h

/-- One more statement is no fault, or it is the first. -/
theorem Faultless.snoc (h : Faultless ss) (hs : ∀ e, ¬Fault ss s e) : Faultless (ss ++ [s]) := by
  intro before t after e hsplit
  rcases after.eq_nil_or_concat with rfl | ⟨after, u, rfl⟩
  · obtain ⟨rfl, ht⟩ := List.append_inj' hsplit rfl
    cases ht
    exact hs e
  · rw [List.concat_eq_append, ← List.cons_append, ← List.append_assoc] at hsplit
    exact h before t after e (List.append_inj' hsplit rfl).1

theorem Faultless.of_snoc (h : Faultless (ss ++ [s])) : Faultless ss := by
  intro before t after e hsplit
  exact h before t (after ++ [s]) e (by rw [hsplit, List.append_assoc, List.cons_append])

/-- Of several faults one is the first. -/
theorem exists_firstFault (h : ¬Faultless ss) : ∃ e, FirstFault ss e := by
  induction ss using List.reverseRecOn with
  | nil => exact absurd faultless_nil h
  | append_singleton ss s ih =>
    by_cases hss : Faultless ss
    · have hs : ∃ e, Fault ss s e := by
        by_contra hnone
        exact h (hss.snoc (not_exists.1 hnone))
      obtain ⟨e, he⟩ := hs
      exact ⟨e, ss, s, [], rfl, hss, he⟩
    · obtain ⟨e, before, t, after, hsplit, hbefore, ht⟩ := ih hss
      exact ⟨e, before, t, after ++ [s], by rw [hsplit, List.append_assoc, List.cons_append],
        hbefore, ht⟩

end

/-! ## What a draft holds of its node -/

/-- A draft that has taken in some statements. -/
structure TakenIn (before : List Statement) (d : Draft) : Prop where
  id : d.node.id = nodeAt before
  choices : d.node.choices = (recent before).filterMap Statement.branch?
  next : d.node.next.toList = (recent before).filterMap Statement.target?

namespace TakenIn
variable {before : List Statement} {d d' : Draft} {s : Statement} {e : ScriptError}

theorem empty : TakenIn [] {} := ⟨rfl, rfl, rfl⟩

/-- A header begins anew, and all else adds to what is there. -/
theorem snoc (h : TakenIn before d) {line : Nat} (hadd : d.add line s = .ok d') :
    TakenIn (before ++ [s]) d' := by
  have hnode : nodeAt (before ++ [s]) = s.header.getD (nodeAt before) := by
    rw [nodeAt, nodeAt, List.filterMap_append]
    cases hs : s.header <;> simp [hs]
  cases hs : s.header with
  | none =>
    have hgrows := Draft.Grows.add hs hadd
    have hrecent : recent (before ++ [s]) = recent before ++ [s] :=
      List.rtakeWhile_concat_pos _ _ _ (by rw [hs]; rfl)
    refine ⟨?_, ?_, ?_⟩
    · rw [hgrows.id, hnode, hs, h.id]
      rfl
    · rw [hgrows.choices, hrecent, h.choices, List.filterMap_append]
    · rw [hgrows.next, hrecent, h.next, List.filterMap_append]
  | some id =>
    obtain rfl : s = .node id := by cases s <;> cases hs; rfl
    cases hadd
    have hrecent : recent (before ++ [.node id]) = [] :=
      List.rtakeWhile_concat_neg _ _ _ Bool.false_ne_true
    exact ⟨hnode.symm, by rw [hrecent]; rfl, by rw [hrecent]; rfl⟩

theorem choices_eq_nil_iff (h : TakenIn before d) :
    d.node.choices = [] ↔ ∀ offer target, .choice offer target ∉ recent before := by
  rw [h.choices, List.filterMap_eq_nil_iff]
  constructor
  · intro hnone offer target hmem
    cases hnone _ hmem
  · intro hnone s hs
    cases s with
    | choice offer target => exact absurd hs (hnone offer target)
    | _ => rfl

theorem next_eq_some_iff (h : TakenIn before d) {next : String} :
    d.node.next = some next ↔ .divert next ∈ recent before := by
  rw [← Option.mem_toList, h.next, List.mem_filterMap]
  constructor
  · rintro ⟨s, hs, hnext⟩
    cases s <;> cases hnext
    exact hs
  · intro hmem
    exact ⟨_, hmem, rfl⟩

/-- A statement is refused exactly if it is a fault. -/
theorem add_eq_error_iff (h : TakenIn before d) :
    d.add (before.length + 1) s = .error e ↔ Fault before s e := by
  constructor
  · intro hadd
    cases s with
    | divert target =>
      rw [Draft.add] at hadd
      split at hadd
      · next next hnext =>
        cases hadd
        rw [h.id]
        exact .secondDivert (h.next_eq_some_iff.1 hnext)
      · cases hadd
    | dialogue text tags =>
      rw [Draft.add] at hadd
      split at hadd
      · cases hadd
      · next hsome =>
        cases hadd
        rw [List.isEmpty_iff, h.choices_eq_nil_iff] at hsome
        simp only [not_forall, not_not] at hsome
        obtain ⟨offer, target, hmem⟩ := hsome
        rw [h.id]
        exact .afterChoice hmem
    | _ => cases hadd
  · rintro (⟨hmem⟩ | ⟨hmem⟩)
    · have hsome : ¬d.node.choices.isEmpty = true := by
        rw [List.isEmpty_iff, h.choices_eq_nil_iff]
        exact fun hnone => hnone _ _ hmem
      rw [Draft.add, if_neg hsome, h.id]
    · rw [Draft.add, h.next_eq_some_iff.2 hmem, h.id]

end TakenIn

/-! ## Reading statements -/

namespace Draft
variable {d d' : Draft} {ss : List Statement} {line : Nat}

/-- Statements behind others that are taken in. -/
theorem addAll_append (h : d.addAll line ss = (d', none)) (more : List Statement) :
    d.addAll line (ss ++ more) = d'.addAll (line + ss.length) more := by
  induction ss generalizing d line with
  | nil =>
    cases h
    rfl
  | cons s ss ih =>
    rw [addAll] at h
    split at h
    · cases h
    · next d₀ hadd =>
      rw [List.cons_append, addAll, hadd]
      simp only
      rw [ih h, List.length_cons, Nat.add_assoc, Nat.add_comm 1]

/-- Statements without a fault are taken in. -/
theorem addAll_of_faultless (h : Faultless ss) : ∃ d, addAll {} 1 ss = (d, none) ∧ TakenIn ss d := by
  induction ss using List.reverseRecOn with
  | nil => exact ⟨{}, rfl, .empty⟩
  | append_singleton ss s ih =>
    obtain ⟨d, hread, htaken⟩ := ih h.of_snoc
    have hnext := addAll_append hread [s]
    rw [Nat.add_comm, addAll] at hnext
    cases hadd : d.add (ss.length + 1) s with
    | error e => exact absurd (htaken.add_eq_error_iff.1 hadd) (h ss s [] e rfl)
    | ok d' =>
      rw [hadd] at hnext
      exact ⟨d', hnext, htaken.snoc hadd⟩

/-- The first fault ends the reading. -/
theorem addAll_of_firstFault {e : ScriptError} (h : FirstFault ss e) :
    ∃ d, addAll {} 1 ss = (d, some e) := by
  obtain ⟨before, s, after, rfl, hbefore, hs⟩ := h
  obtain ⟨d, hread, htaken⟩ := addAll_of_faultless hbefore
  refine ⟨d, ?_⟩
  rw [addAll_append hread, Nat.add_comm, addAll, htaken.add_eq_error_iff.2 hs]

end Draft

/-! ## Refused scripts -/

/-- The ids of the nodes of a script, `start` included if something stands before the first header.
-/
def nodeIds (ss : List Statement) : List String := (passages ss).map Passage.id

/-- The first id that comes a second time. -/
def Repeats (ids : List String) (id : String) : Prop :=
  ∃ front back, ids = front ++ id :: back ∧ front.Nodup ∧ id ∈ front

theorem repeats_of_firstDuplicate? {seen : List String} {ns : List Node} {id : String}
    (h : firstDuplicate? seen ns = some id) :
    ∃ front back, ns.map (·.id) = front ++ id :: back ∧ front.Nodup ∧ (∀ x ∈ front, x ∉ seen) ∧
      (id ∈ seen ∨ id ∈ front) := by
  induction ns generalizing seen with
  | nil => cases h
  | cons n ns ih =>
    rw [firstDuplicate?] at h
    split at h
    · next hseen =>
      cases h
      exact ⟨[], ns.map (·.id), rfl, .nil, List.forall_mem_nil _, .inl (by simpa using hseen)⟩
    · next hnew =>
      obtain ⟨front, back, hns, hnodup, hfresh, hid⟩ := ih h
      refine ⟨n.id :: front, back, by rw [List.map_cons, hns, List.cons_append], ?_, ?_, ?_⟩
      · exact List.nodup_cons.2 ⟨fun hmem => hfresh _ hmem List.mem_cons_self, hnodup⟩
      · refine List.forall_mem_cons.2 ⟨by simpa using hnew, fun x hx => ?_⟩
        exact fun hmem => hfresh x hx (List.mem_cons_of_mem _ hmem)
      · rw [List.mem_cons] at hid ⊢
        exact or_assoc.1 (hid.imp_left Or.symm)

/-- The nodes of a script that has been read have the ids of its passages. -/
theorem ids_of_addAll {ss : List Statement} {d : Draft} (h : Draft.addAll {} 1 ss = (d, none)) :
    d.close.nodes.map (·.id) = nodeIds ss := by
  obtain ⟨made, hmade, hnodes, -⟩ := made_of_statements h
  rw [hnodes, List.map_map, nodeIds]
  clear hnodes h
  generalize passages ss = ps at hmade
  induction hmade with
  | nil => rfl
  | cons hmakes _ ih => rw [List.map_cons, List.map_cons, ih, ← hmakes.id]; rfl

theorem Repeats.not_nodup {ids : List String} {id : String} (h : Repeats ids id) : ¬ids.Nodup := by
  obtain ⟨front, back, rfl, -, hmem⟩ := h
  intro hnodup
  exact (List.nodup_append.1 hnodup).2.2 id hmem id List.mem_cons_self rfl

section
variable {text : String}

/-- A script is refused for its first fault. -/
theorem compile_of_firstFault {e : ScriptError} (h : FirstFault (statements text) e) :
    (compile text).result = .error e := by
  obtain ⟨d, hread⟩ := Draft.addAll_of_firstFault h
  rw [compile, hread]

/-- A script without a fault compiles, unless two of its nodes have one id. -/
theorem compile_of_faultless (h : Faultless (statements text)) :
    ((nodeIds (statements text)).Nodup ∧ ∃ g, (compile text).result = .ok g) ∨
      ∃ id, Repeats (nodeIds (statements text)) id ∧
        (compile text).result = .error (.duplicate id) := by
  obtain ⟨d, hread, -⟩ := Draft.addAll_of_faultless h
  rw [← ids_of_addAll hread, compile, hread]
  simp only
  split
  · next id hdup =>
    obtain ⟨front, back, hids, hnodup, -, hid⟩ := repeats_of_firstDuplicate? hdup
    exact .inr ⟨id, ⟨front, back, hids, hnodup, hid.resolve_left List.not_mem_nil⟩, rfl⟩
  · next hdup => exact .inl ⟨(nodup_of_firstDuplicate? hdup).1, _, rfl⟩

end

/-- **Scripts are refused exactly if they are ill-formed.** Each line says what its form tells. A
script with a fault is refused for the first one, which is on the line that is named. A script
without one is refused if two of its nodes have one id, with the line number 0 and the first id that
comes a second time; and else it compiles. -/
theorem scripts_are_refused_iff_ill_formed (text : String) :
    List.Forall₂ (fun line s => Statement.Says (Text.trim line) s)
        (Text.splitAt '\n' text.toList) (statements text) ∧
      (∀ before s after e, statements text = before ++ s :: after → Faultless before →
        Fault before s e →
          (compile text).result = .error e ∧ e.line = before.length + 1) ∧
      (Faultless (statements text) → ¬(nodeIds (statements text)).Nodup →
        ∃ id, (compile text).result = .error (.duplicate id) ∧
          (ScriptError.duplicate id).line = 0 ∧ Repeats (nodeIds (statements text)) id) ∧
      ((∃ e, (compile text).result = .error e) ↔
        (∃ before s after e, statements text = before ++ s :: after ∧ Fault before s e) ∨
          ¬(nodeIds (statements text)).Nodup) := by
  refine ⟨?_, ?_, ?_, ?_, ?_⟩
  · exact List.forall₂_map_right_iff.2
      (List.forall₂_same.2 fun line _ => Statement.says_iff.2 rfl)
  · intro before s after e hsplit hbefore hs
    refine ⟨compile_of_firstFault ⟨before, s, after, hsplit, hbefore, hs⟩, ?_⟩
    cases hs <;> rfl
  · intro h hids
    obtain ⟨hnodup, -⟩ | ⟨id, hid, hresult⟩ := compile_of_faultless h
    · exact absurd hnodup hids
    · exact ⟨id, hresult, rfl, hid⟩
  · rintro ⟨e, he⟩
    by_cases h : Faultless (statements text)
    · obtain ⟨-, g, hg⟩ | ⟨id, hid, -⟩ := compile_of_faultless h
      · rw [hg] at he
        cases he
      · exact .inr hid.not_nodup
    · obtain ⟨e, before, s, after, hsplit, -, hs⟩ := exists_firstFault h
      exact .inl ⟨before, s, after, e, hsplit, hs⟩
  · intro hill
    by_cases h : Faultless (statements text)
    · obtain ⟨hnodup, -⟩ | ⟨id, -, hresult⟩ := compile_of_faultless h
      · obtain ⟨before, s, after, e, hsplit, hs⟩ | hids := hill
        · exact absurd hs (h before s after e hsplit)
        · exact absurd hnodup hids
      · exact ⟨_, hresult⟩
    · obtain ⟨e, he⟩ := exists_firstFault h
      exact ⟨e, compile_of_firstFault he⟩

end VisualNovel.Story
