import VisualNovel.Story.Script
/-!
# Names in a script

A line of a script that brings a name brings one that is not empty (`Statement.named_ofLine`). So no
name in a node of a script is empty (`Draft.Named`): no line that is taken in changes that
(`Draft.Named.add`), whatever it says, and a script that compiles is such nodes, of which no two
have one id (`nodes_of_compile`).
-/
namespace VisualNovel.Story

/-! ## Statements -/

/-- The names that a statement brings. -/
def Statement.names : Statement → List String
  | .node id => [id]
  | .choice _ target => [target]
  | .divert target => [target]
  | _ => []

/-- No name that a statement brings is empty. -/
def Statement.Named (s : Statement) : Prop := ∀ name ∈ s.names, name ≠ ""

namespace Statement
variable {s : List Char} {name : String}

theorem readName?_ne {rest : List Char} (h : readName? s = some (name, rest)) : name ≠ "" := by
  unfold readName? at h
  simp only [Option.ite_none_left_eq_some, Option.some.injEq, Prod.mk.injEq] at h
  obtain ⟨hne, rfl, -⟩ := h
  simpa using hne

theorem header?_ne (h : header? s = some name) : name ≠ "" := by
  unfold header? at h
  rw [Option.ite_none_left_eq_some] at h
  obtain ⟨-, h⟩ := h
  split at h
  · next hname =>
    rw [Option.ite_none_right_eq_some] at h
    obtain ⟨-, h⟩ := h
    cases h
    exact readName?_ne hname
  · cases h

theorem beforeArrow?_ne {body : List Char} (h : beforeArrow? s = some (body, name)) :
    name ≠ "" := by
  unfold beforeArrow? at h
  dsimp only at h
  split at h
  · rw [Option.ite_none_left_eq_some] at h
    obtain ⟨hne, h⟩ := h
    cases h
    simpa using hne
  · cases h

theorem choice?_ne {text : String} (h : choice? s = some (text, name)) : name ≠ "" := by
  unfold choice? at h
  split at h
  · obtain ⟨⟨body, target⟩, hbefore, h⟩ := Option.bind_eq_some_iff.1 h
    obtain ⟨text', -, h⟩ := Option.bind_eq_some_iff.1 h
    cases h
    exact beforeArrow?_ne hbefore
  · cases h

theorem divert?_ne (h : divert? s = some name) : name ≠ "" := by
  unfold divert? onlyName? at h
  split at h
  · split at h
    · next hname =>
      cases h
      exact readName?_ne hname
    · cases h
  · cases h

theorem named_ofTrimmed (s : List Char) : (ofTrimmed s).Named := by
  unfold ofTrimmed
  split
  · simp [Named, names]
  split
  · next hheader => simpa [Named, names] using header?_ne hheader
  split
  · simp [Named, names]
  split
  · next hchoice => simpa [Named, names] using choice?_ne hchoice
  split
  · next hdivert => simpa [Named, names] using divert?_ne hdivert
  · simp [Named, names]

/-- No name that a line brings is empty. -/
theorem named_ofLine (s : List Char) : (ofLine s).Named := named_ofTrimmed _

end Statement

/-! ## Drafts -/

/-- No name in a node is empty. -/
structure Node.Named (n : Node) : Prop where
  id : n.id ≠ ""
  choices : ∀ b ∈ n.choices, b.next ≠ ""
  next : ∀ t ∈ n.next, t ≠ ""

namespace Draft
variable {d d' : Draft}

/-- No name in the nodes of a draft is empty. -/
def Named (d : Draft) : Prop := ∀ n ∈ d.nodes, n.Named

/-- The node being read, be it there or not. -/
theorem Named.node (h : d.Named) : d.node.Named := by
  unfold Draft.node
  cases hcurrent : d.current with
  | none => exact ⟨by decide, by simp, by simp⟩
  | some n => exact h n (by simp [nodes, hcurrent])

/-- The node being read gives way to another one. -/
theorem Named.update (h : d.Named) {n : Node} (hn : n.Named) (waiting : List String) :
    Named { d with current := some n, waiting } := by
  intro m hm
  rcases List.mem_append.1 hm with hm | hm
  · exact h m (List.mem_append_left _ hm)
  · obtain rfl : m = n := by simpa using hm
    exact hn

theorem Named.close (h : d.Named) : d.close.Named := by
  intro m hm
  exact h m (by simpa [Draft.close, nodes] using hm)

/-- What a line says leaves no name empty. -/
theorem Named.add (h : d.Named) {line : Nat} {s : Statement} (hs : s.Named)
    (hadd : d.add line s = .ok d') : d'.Named := by
  have hnode := h.node
  cases s with
  | nothing =>
    cases hadd
    exact h
  | node id =>
    cases hadd
    exact h.close.update ⟨hs id (by simp [Statement.names]), by simp, by simp⟩ _
  | tags tags =>
    cases hadd
    exact h.update hnode _
  | choice text target =>
    cases hadd
    refine h.update (n := { d.node with choices := d.node.choices ++ [⟨text, target⟩] })
      ⟨hnode.id, ?_, hnode.next⟩ _
    intro b hb
    rcases List.mem_append.1 hb with hb | hb
    · exact hnode.choices b hb
    · obtain rfl : b = ⟨text, target⟩ := by simpa using hb
      exact hs target (by simp [Statement.names])
  | divert target =>
    rw [Draft.add] at hadd
    split at hadd
    · cases hadd
    · cases hadd
      refine h.update (n := { d.node with next := some target }) ⟨hnode.id, hnode.choices, ?_⟩ _
      rintro t ⟨⟩
      exact hs target (by simp [Statement.names])
  | dialogue text tags =>
    rw [Draft.add] at hadd
    split at hadd
    · cases hadd
      exact h.update (n := { d.node with lines := d.node.lines ++ [⟨text, d.waiting ++ tags⟩] })
        ⟨hnode.id, hnode.choices, hnode.next⟩ _
    · cases hadd

/-- What the lines of a script say leaves no name empty. -/
theorem Named.addAll (h : d.Named) {ss : List Statement} (hss : ∀ s ∈ ss, s.Named) (line : Nat)
    {fault : Option ScriptError} (hadd : d.addAll line ss = (d', fault)) : d'.Named := by
  induction ss generalizing d line with
  | nil =>
    cases hadd
    exact h
  | cons s ss ih =>
    unfold addAll at hadd
    split at hadd
    · cases hadd
      exact h
    · next hstep =>
      exact ih (h.add (hss s List.mem_cons_self) hstep)
        (fun s hs => hss s (List.mem_cons_of_mem _ hs)) _ hadd

end Draft

/-- The nodes of a script that compiles: no name in them is empty, and no two have one id. -/
theorem nodes_of_compile {text : String} {g : Graph} (h : (compile text).result = .ok g) :
    ∃ ns, g = .ofNodes "compiled" ns ∧ (∀ n ∈ ns, n.Named) ∧ firstDuplicate? [] ns = none := by
  unfold compile at h
  split at h
  · cases h
  · next d hadd =>
    have hss : ∀ s ∈ statements text, s.Named := by
      intro s hs
      obtain ⟨line, -, rfl⟩ := List.mem_map.1 hs
      exact Statement.named_ofLine line
    have hempty : ({} : Draft).Named := by simp [Draft.Named, Draft.nodes]
    have hnamed := (hempty.addAll hss 1 hadd).close
    dsimp only at h
    split at h
    · cases h
    · next hdup =>
      cases h
      exact ⟨d.close.nodes, rfl, hnamed, hdup⟩

end VisualNovel.Story
