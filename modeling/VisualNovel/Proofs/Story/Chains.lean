import Mathlib.Data.List.Nodup
import Mathlib.Data.List.Perm.Subperm
import VisualNovel.Story.Format
import VisualNovel.Story.Player
/-!
# Chains of nodes

Where nothing is left to read or to choose, a story follows `next` from node to node. `Graph.Walks`
tells that walk without any bound: it stays where there is something to read or to choose, it ends
where a node names no other, and else it goes on. A player gives up a walk after as many steps as
there are nodes and one. In a sound graph that cuts off no walk that comes to something
(`Graph.Sound.arrive_iff`): the nodes that a walk enters are distinct, since each of them is nearer
to where it leads than the one before (`Graph.Walks.entered`).
-/
namespace VisualNovel.Story

/-- A node that names no other to go on with: nothing, an empty text, or the end. -/
def Node.Exits (n : Node) : Prop := n.next = none ∨ n.next = some "" ∨ n.next = some theEnd

/-- A node names another one of the story to go on with. -/
structure Graph.Links (g : Graph) (n m : Node) : Prop where
  mem : m ∈ g.nodes
  next : n.next = some m.id
  named : m.id ≠ ""
  notEnd : m.id ≠ theEnd

/-- Where a walk leads from a place, and in how many steps: to a place that holds something, or to
the end of the story. -/
inductive Graph.Walks (g : Graph) : Nat → Place → Option Place → Prop
  | stays {p} (h : p.holds = true) : Walks g 0 p (some p)
  | ends {p} (h : p.holds = false) (hexit : p.node.Exits) : Walks g 0 p none
  | goes {k p m a} (h : p.holds = false) (hlink : g.Links p.node m) (hwalk : Walks g k ⟨m, 0⟩ a) :
      Walks g (k + 1) p a

/-- What comes of a chain of nodes: where its walk leads, or that it leads nowhere. -/
inductive Graph.Arrives (g : Graph) (p : Place) : Arrival → Prop
  | at {k q} (h : g.Walks k p (some q)) : Arrives g p (.at q)
  | ended {k} (h : g.Walks k p none) : Arrives g p .ended
  | looped (h : ∀ k a, ¬g.Walks k p a) : Arrives g p .looped

/-- A graph without faults: no two nodes have one id, and every target is the end or a node. -/
structure Graph.Sound (g : Graph) : Prop where
  distinct : (g.nodes.map (·.id)).Nodup
  known : ∀ n ∈ g.nodes, ∀ t ∈ n.targets, t = theEnd ∨ ∃ m ∈ g.nodes, m.id = t
  start : ∃ m ∈ g.nodes, m.id = g.start

/-! ## Sound graphs -/

theorem nodup_of_firstDuplicate? {seen : List String} {ns : List Node}
    (h : firstDuplicate? seen ns = none) :
    (ns.map (·.id)).Nodup ∧ ∀ n ∈ ns, n.id ∉ seen := by
  induction ns generalizing seen with
  | nil => simp
  | cons n ns ih =>
    unfold firstDuplicate? at h
    split at h
    · cases h
    · next hseen =>
      obtain ⟨hnodup, hfresh⟩ := ih h
      refine ⟨?_, ?_⟩
      · rw [List.map_cons, List.nodup_cons]
        refine ⟨?_, hnodup⟩
        intro hmem
        obtain ⟨m, hm, hid⟩ := List.mem_map.1 hmem
        exact hfresh m hm (by simp [hid])
      · intro m hm
        rcases List.mem_cons.1 hm with rfl | hm
        · simpa using hseen
        · intro hmem
          exact hfresh m hm (List.mem_cons_of_mem _ hmem)

theorem Graph.node?_mem {g : Graph} {id : String} {m : Node} (h : g.node? id = some m) :
    m ∈ g.nodes ∧ m.id = id :=
  ⟨List.mem_of_find?_eq_some h, by simpa using List.find?_some h⟩

theorem Graph.knows_iff {g : Graph} {t : String} :
    g.knows t = true ↔ t = theEnd ∨ ∃ m ∈ g.nodes, m.id = t := by
  simp [Graph.knows, Graph.node?, List.find?_isSome]

theorem Graph.Sound.of_fault? {g : Graph} (h : g.fault? = none) : g.Sound := by
  unfold Graph.fault? at h
  split at h
  · cases h
  · next hdup =>
    split at h
    · cases h
    · next htargets =>
      split at h
      · cases h
      · next hstart =>
        refine ⟨(nodup_of_firstDuplicate? hdup).1, ?_, ?_⟩
        · intro n hn t ht
          unfold Graph.unknownTarget? at htargets
          have hnone := List.findSome?_eq_none_iff.1 htargets n hn
          rw [Option.map_eq_none_iff, List.find?_eq_none] at hnone
          apply Graph.knows_iff.1
          simpa using hnone t ht
        · rw [Option.isNone_iff_eq_none, ← ne_eq, Option.ne_none_iff_exists'] at hstart
          obtain ⟨m, hm⟩ := hstart
          exact ⟨m, Graph.node?_mem hm⟩

/-- The graph of a story that is accepted is sound. -/
theorem Graph.Sound.of_content {content : Json} {g : Graph} (h : Graph.ofContent content = .ok g) :
    g.Sound := by
  have hjson {j : Json} (hj : Graph.ofJson j = .ok g) : g.Sound := by
    unfold Graph.ofJson at hj
    split at hj
    · cases hj
    · split at hj
      · cases hj
      · next hfault =>
        cases hj
        exact .of_fault? hfault
  unfold Graph.ofContent at h
  split at h
  · split at h
    · cases h
    · cases h
    · exact hjson h
  · exact hjson h

theorem Graph.Sound.eq_of_id {g : Graph} (hg : g.Sound) {m n : Node} (hm : m ∈ g.nodes)
    (hn : n ∈ g.nodes) (hid : m.id = n.id) : m = n :=
  List.inj_on_of_nodup_map hg.distinct hm hn hid

theorem Graph.Sound.node?_iff {g : Graph} (hg : g.Sound) {id : String} {m : Node} :
    g.node? id = some m ↔ m ∈ g.nodes ∧ m.id = id := by
  refine ⟨Graph.node?_mem, ?_⟩
  rintro ⟨hm, rfl⟩
  obtain ⟨n, hn⟩ : ∃ n, g.node? m.id = some n := by
    rw [← Option.isSome_iff_exists]
    unfold Graph.node?
    rw [List.find?_isSome]
    exact ⟨m, hm, by simp⟩
  obtain ⟨hmem, hid⟩ := Graph.node?_mem hn
  rw [hn, hg.eq_of_id hmem hm hid]

/-- A node either names no other, or another one that is there. -/
theorem Graph.Sound.exits_or_links {g : Graph} (hg : g.Sound) {n : Node} (hn : n ∈ g.nodes) :
    (n.Exits ∧ n.successor?.bind g.node? = none) ∨
      ∃ m, g.Links n m ∧ n.successor?.bind g.node? = some m := by
  unfold Node.Exits Node.successor?
  cases hnext : n.next with
  | none => exact .inl ⟨.inl rfl, rfl⟩
  | some t =>
    by_cases hempty : t = ""
    · exact .inl ⟨.inr (.inl (by rw [hempty])), by simp [hempty]⟩
    by_cases hend : t = theEnd
    · exact .inl ⟨.inr (.inr (by rw [hend])), by simp [hend]⟩
    have htarget : t ∈ n.targets := by
      unfold Node.targets
      rw [hnext]
      simp [hempty]
    obtain ⟨m, hm, hid⟩ := (hg.known n hn t htarget).resolve_left hend
    refine .inr ⟨m, ⟨hm, hid ▸ hnext, hid ▸ hempty, hid ▸ hend⟩, ?_⟩
    have hfind := hg.node?_iff.2 ⟨hm, hid⟩
    simp [Option.filter, hempty, hend, hfind]

/-! ## Walks -/

theorem Graph.Links.not_exits {g : Graph} {n m : Node} (h : g.Links n m) : ¬n.Exits := by
  unfold Node.Exits
  rw [h.next]
  rintro (hnone | hempty | hend)
  · cases hnone
  · exact h.named (Option.some.inj hempty)
  · exact h.notEnd (Option.some.inj hend)

theorem Graph.Sound.links_unique {g : Graph} (hg : g.Sound) {n m m' : Node} (h : g.Links n m)
    (h' : g.Links n m') : m = m' := by
  have hid : m.id = m'.id := Option.some.inj (h.next.symm.trans h'.next)
  exact hg.eq_of_id h.mem h'.mem hid

namespace Graph.Walks
variable {g : Graph} {p : Place} {a a' : Option Place} {k k' : Nat}

/-- From a place there is one walk at most. -/
theorem unique (hg : g.Sound) (h : g.Walks k p a) (h' : g.Walks k' p a') : k = k' ∧ a = a' := by
  induction h generalizing k' a' with
  | stays hold =>
    cases h' with
    | stays => exact ⟨rfl, rfl⟩
    | ends hold' => exact absurd (hold.symm.trans hold') Bool.noConfusion
    | goes hold' => exact absurd (hold.symm.trans hold') Bool.noConfusion
  | ends hold hexit =>
    cases h' with
    | stays hold' => exact absurd (hold.symm.trans hold') Bool.noConfusion
    | ends => exact ⟨rfl, rfl⟩
    | goes _ hlink' => exact absurd hexit hlink'.not_exits
  | goes hold hlink hwalk ih =>
    cases h' with
    | stays hold' => exact absurd (hold.symm.trans hold') Bool.noConfusion
    | ends _ hexit' => exact absurd hexit' hlink.not_exits
    | goes _ hlink' hwalk' =>
      obtain rfl := hg.links_unique hlink hlink'
      obtain ⟨rfl, rfl⟩ := ih hwalk'
      exact ⟨rfl, rfl⟩

/-- A walk stays among the nodes of the story. -/
theorem node_mem {q : Place} (h : g.Walks k p (some q)) (hp : p.node ∈ g.nodes) :
    q.node ∈ g.nodes := by
  generalize ha : some q = a at h
  induction h with
  | stays =>
    cases ha
    exact hp
  | ends => cases ha
  | goes _ hlink _ ih => exact ih hlink.mem ha

/-- A walk that leads to a place leads to one that holds something. -/
theorem holds {q : Place} (h : g.Walks k p (some q)) : q.holds = true := by
  generalize ha : some q = a at h
  induction h with
  | stays hold =>
    cases ha
    exact hold
  | ends => cases ha
  | goes _ _ _ ih => exact ih ha

/-- A walk enters as many distinct nodes as it has steps: from each of them it is nearer to where it
leads than it was before. -/
theorem entered (hg : g.Sound) (h : g.Walks k p a) :
    ∃ ms : List Node, ms.length = k ∧ ms.Nodup ∧
      ∀ m ∈ ms, m ∈ g.nodes ∧ ∃ j, j < k ∧ g.Walks j ⟨m, 0⟩ a := by
  induction h with
  | stays => exact ⟨[], rfl, List.nodup_nil, by simp⟩
  | ends => exact ⟨[], rfl, List.nodup_nil, by simp⟩
  | @goes k p m a hold hlink hwalk ih =>
    obtain ⟨ms, hlength, hnodup, hnear⟩ := ih
    refine ⟨m :: ms, by simp [hlength], ?_, ?_⟩
    · rw [List.nodup_cons]
      refine ⟨?_, hnodup⟩
      intro hmem
      obtain ⟨-, j, hj, hwalk'⟩ := hnear m hmem
      have heq := (unique hg hwalk hwalk').1
      omega
    · intro n hn
      rcases List.mem_cons.1 hn with rfl | hn
      · exact ⟨hlink.mem, k, by omega, hwalk⟩
      · obtain ⟨hmem, j, hj, hwalk'⟩ := hnear n hn
        exact ⟨hmem, j, by omega, hwalk'⟩

/-- A walk that comes to something has no more steps than there are nodes. -/
theorem length_le (hg : g.Sound) (h : g.Walks k p a) : k ≤ g.nodes.length := by
  obtain ⟨ms, hlength, hnodup, hnear⟩ := entered hg h
  have hsub : ms ⊆ g.nodes := fun m hm => (hnear m hm).1
  rw [← hlength]
  exact (List.subperm_of_subset hnodup hsub).length_le

/-- A walk is followed to where it leads, if there is a step left for each place on it. -/
theorem follow (hg : g.Sound) (hp : p.node ∈ g.nodes) (h : g.Walks k p a) {fuel : Nat}
    (hfuel : k < fuel) : g.follow fuel p = a.elim .ended .at := by
  induction h generalizing fuel with
  | @stays p hold =>
    obtain ⟨fuel, rfl⟩ : ∃ n, fuel = n + 1 := ⟨fuel - 1, by omega⟩
    simp [Graph.follow, hold]
  | @ends p hold hexit =>
    obtain ⟨fuel, rfl⟩ : ∃ n, fuel = n + 1 := ⟨fuel - 1, by omega⟩
    rcases hg.exits_or_links hp with ⟨-, hnone⟩ | ⟨m, hlink, -⟩
    · simp [Graph.follow, hold, hnone]
    · exact absurd hexit hlink.not_exits
  | @goes k p m a hold hlink hwalk ih =>
    obtain ⟨fuel, rfl⟩ : ∃ n, fuel = n + 1 := ⟨fuel - 1, by omega⟩
    rcases hg.exits_or_links hp with ⟨hexit, -⟩ | ⟨m', hlink', hnext⟩
    · exact absurd hexit hlink.not_exits
    · obtain rfl := hg.links_unique hlink hlink'
      simp [Graph.follow, hold, hnext, ih hlink.mem (show k < fuel by omega)]

end Graph.Walks

/-- Only one thing comes of a chain. -/
theorem Graph.Arrives.unique {g : Graph} (hg : g.Sound) {p : Place} {a a' : Arrival}
    (h : g.Arrives p a) (h' : g.Arrives p a') : a = a' := by
  cases h with
  | «at» h =>
    cases h' with
    | «at» h' =>
      obtain ⟨-, heq⟩ := h.unique hg h'
      cases heq
      rfl
    | ended h' => cases (h.unique hg h').2
    | looped h' => exact absurd h (h' _ _)
  | ended h =>
    cases h' with
    | «at» h' => cases (h.unique hg h').2
    | ended => rfl
    | looped h' => exact absurd h (h' _ _)
  | looped h =>
    cases h' with
    | «at» h' => exact absurd h' (h _ _)
    | ended h' => exact absurd h' (h _ _)
    | looped => rfl

/-- What is found by following a chain lies on the walk. -/
theorem Graph.Sound.walks_of_follow {g : Graph} (hg : g.Sound) {fuel : Nat} {p : Place}
    (hp : p.node ∈ g.nodes) {a : Option Place} (h : g.follow fuel p = a.elim .ended .at) :
    ∃ k, g.Walks k p a := by
  induction fuel generalizing p with
  | zero => cases a <;> cases h
  | succ fuel ih =>
    unfold Graph.follow at h
    split at h
    · next hold =>
      cases a with
      | none => cases h
      | some q =>
        cases h
        exact ⟨0, .stays hold⟩
    · next hold =>
      rw [Bool.not_eq_true] at hold
      rcases hg.exits_or_links hp with ⟨hexit, hnone⟩ | ⟨m, hlink, hnext⟩
      · rw [hnone] at h
        cases a with
        | none => exact ⟨0, .ends hold hexit⟩
        | some q => cases h
      · rw [hnext] at h
        obtain ⟨k, hwalk⟩ := ih hlink.mem h
        exact ⟨k + 1, .goes hold hlink hwalk⟩

/-- In a sound graph a player comes to where the walk leads, and gives up exactly those chains that
lead nowhere. -/
theorem Graph.Sound.arrive_iff {g : Graph} (hg : g.Sound) {p : Place} (hp : p.node ∈ g.nodes)
    {a : Arrival} : g.arrive p = a ↔ g.Arrives p a := by
  have hfound {k : Nat} {b : Option Place} (h : g.Walks k p b) :
      g.arrive p = b.elim .ended .at := h.follow hg hp (Nat.lt_succ_of_le (h.length_le hg))
  constructor
  · rintro rfl
    cases harrive : g.arrive p with
    | «at» q =>
      obtain ⟨k, hwalk⟩ := hg.walks_of_follow hp (a := some q) harrive
      exact .at hwalk
    | ended =>
      obtain ⟨k, hwalk⟩ := hg.walks_of_follow hp (a := none) harrive
      exact .ended hwalk
    | looped =>
      refine .looped ?_
      intro k b hwalk
      rw [hfound hwalk] at harrive
      cases b <;> cases harrive
  · intro h
    cases h with
    | «at» h => exact hfound h
    | ended h => exact hfound h
    | looped h =>
      cases harrive : g.arrive p with
      | «at» q =>
        obtain ⟨k, hwalk⟩ := hg.walks_of_follow hp (a := some q) harrive
        exact absurd hwalk (h k _)
      | ended =>
        obtain ⟨k, hwalk⟩ := hg.walks_of_follow hp (a := none) harrive
        exact absurd hwalk (h k _)
      | looped => rfl

end VisualNovel.Story
