import VisualNovel.Proofs.Story.Chains
import VisualNovel.Proofs.Story.Drafts
import VisualNovel.Proofs.Story.Shapes
/-!
# Compiled stories are accepted

A graph in which no name is empty is read back from its JSON (`Graph.ofShape?_toJson`). A script
that compiles is such a graph, and starts with its first node; so the only faults that are left to
it are that it has no nodes, or that one of its targets is not there
(`compiled_stories_are_accepted_iff`).
-/
namespace VisualNovel.Story

/-! ## Reading back -/

theorem mapM_map_eq_some {α β : Type} {read : β → Option α} {write : α → β} {xs : List α}
    (h : ∀ x ∈ xs, read (write x) = some x) : (xs.map write).mapM read = some xs := by
  rw [mapM_eq_some_iff, List.forall₂_map_left_iff, List.forall₂_same]
  exact h

theorem Line.ofJson?_toJson (l : Line) : Line.ofJson? l.toJson = some l := by
  have htags : (l.tags.map Json.str).mapM text? = some l.tags :=
    mapM_map_eq_some fun _ _ => rfl
  simp [Line.ofJson?, Line.toJson, closedObject?, Assoc.lookup_cons, text?, list?, htags, optional]

theorem Branch.ofJson?_toJson {b : Branch} (h : b.next ≠ "") :
    Branch.ofJson? b.toJson = some b := by
  simp [Branch.ofJson?, Branch.toJson, closedObject?, Assoc.lookup_cons, text?, name?, h]

theorem Node.ofJson?_toJson {n : Node} (h : n.Named) : Node.ofJson? n.toJson = some n := by
  have hlines : (n.lines.map Line.toJson).mapM Line.ofJson? = some n.lines :=
    mapM_map_eq_some fun l _ => l.ofJson?_toJson
  have hchoices : (n.choices.map Branch.toJson).mapM Branch.ofJson? = some n.choices :=
    mapM_map_eq_some fun b hb => Branch.ofJson?_toJson (h.choices b hb)
  have hnext : target? (n.next.elim .null .str) = some n.next := by cases n.next <;> rfl
  simp [Node.ofJson?, Node.toJson, closedObject?, Assoc.lookup_cons, name?, list?, optional, h.id,
    hlines, hchoices, hnext]

/-- A graph that has nodes, and no empty name, is read back. -/
theorem Graph.ofShape?_toJson {g : Graph} (hnamed : ∀ n ∈ g.nodes, n.Named) (hstart : g.start ≠ "")
    (hne : g.nodes ≠ []) : Graph.ofShape? g.toJson = some g := by
  obtain ⟨first, rest, hnodes⟩ := List.exists_cons_of_ne_nil hne
  have hmap : (g.nodes.map Node.toJson).mapM Node.ofJson? = some (first :: rest) := by
    rw [← hnodes]
    exact mapM_map_eq_some fun n hn => Node.ofJson?_toJson (hnamed n hn)
  simp [Graph.ofShape?, Graph.toJson, Assoc.lookup_cons, nodes?, list?, hmap, optional, text?, name?,
    hstart]
  rw [← hnodes]

/-- A graph without nodes has not the shape of a story. -/
theorem Graph.ofShape?_toJson_nil {g : Graph} (hnil : g.nodes = []) :
    Graph.ofShape? g.toJson = none := by
  simp [Graph.ofShape?, Graph.toJson, Assoc.lookup_cons, nodes?, list?, hnil]

/-! ## Targets -/

/-- A target of a node is that of a choice, or of the node itself. -/
def Node.PointsTo (n : Node) (t : String) : Prop := (∃ b ∈ n.choices, b.next = t) ∨ n.next = some t

/-- A target leads to the end, or to a node of the story. -/
def Graph.Leads (g : Graph) (t : String) : Prop := t = theEnd ∨ ∃ n ∈ g.nodes, n.id = t

theorem Node.Named.mem_targets {n : Node} (h : n.Named) {t : String} :
    t ∈ n.targets ↔ n.PointsTo t := by
  have hnext : n.next.filter (· ≠ "") = n.next := by
    cases hn : n.next with
    | none => rfl
    | some t => simp [Option.filter, h.next t hn]
  rw [Node.targets, hnext, List.mem_append, List.mem_map, Option.mem_toList]
  rfl

/-- The first target that leads nowhere, if there is one. -/
theorem Graph.unknownTarget?_cases {g : Graph} (hnamed : ∀ n ∈ g.nodes, n.Named) :
    (g.unknownTarget? = none ∧ ∀ n ∈ g.nodes, ∀ t, n.PointsTo t → g.Leads t) ∨
      ∃ n ∈ g.nodes, ∃ t, g.unknownTarget? = some (n.id, t) ∧ n.PointsTo t ∧ ¬g.Leads t := by
  cases hunknown : g.unknownTarget? with
  | none =>
    refine .inl ⟨rfl, ?_⟩
    intro n hn t ht
    have hnone := List.findSome?_eq_none_iff.1 hunknown n hn
    rw [Option.map_eq_none_iff, List.find?_eq_none] at hnone
    apply Graph.knows_iff.1
    simpa using hnone t ((hnamed n hn).mem_targets.2 ht)
  | some found =>
    obtain ⟨n, hn, hfound⟩ := List.exists_of_findSome?_eq_some hunknown
    obtain ⟨t, ht, rfl⟩ := Option.map_eq_some_iff.1 hfound
    refine .inr ⟨n, hn, t, rfl, (hnamed n hn).mem_targets.1 (List.mem_of_find?_eq_some ht), ?_⟩
    intro hleads
    have hunknown := List.find?_some ht
    rw [Graph.knows_iff.2 hleads] at hunknown
    cases hunknown

/-! ## Compiled stories -/

/-- The start of a story that was compiled is its first node. -/
theorem Graph.start_ofNodes (id : String) (n : Node) (rest : List Node) :
    (Graph.ofNodes id (n :: rest)).start = n.id := rfl

/-- What becomes of the nodes of a script that has some. -/
theorem Graph.ofContent_ofNodes {id : String} {n : Node} {rest : List Node}
    (hnamed : ∀ m ∈ n :: rest, m.Named) (hdistinct : firstDuplicate? [] (n :: rest) = none) :
    Graph.ofContent (Graph.ofNodes id (n :: rest)).toJson =
      match (Graph.ofNodes id (n :: rest)).unknownTarget? with
      | none => .ok (.ofNodes id (n :: rest))
      | some (node, target) => .error (.unknownTarget node target) := by
  have hshape : Graph.ofShape? (Graph.ofNodes id (n :: rest)).toJson =
      some (.ofNodes id (n :: rest)) :=
    Graph.ofShape?_toJson hnamed (hnamed n List.mem_cons_self).id (List.cons_ne_nil _ _)
  have hstart : ((Graph.ofNodes id (n :: rest)).node? n.id).isNone = false := by
    simp [Graph.node?, Graph.ofNodes]
  have hcontent : Graph.ofContent (Graph.ofNodes id (n :: rest)).toJson =
      Graph.ofJson (Graph.ofNodes id (n :: rest)).toJson := rfl
  rw [hcontent, Graph.ofJson, hshape]
  simp only [Graph.fault?]
  rw [show (Graph.ofNodes id (n :: rest)).nodes = n :: rest from rfl, hdistinct,
    Graph.start_ofNodes, hstart]
  cases (Graph.ofNodes id (n :: rest)).unknownTarget? <;> rfl

/-- **Compiled stories are accepted, unless a target is missing.** What a script is compiled into is
accepted as a story exactly if it has nodes and every target in it is the end or one of its nodes.
Without nodes it is refused for its shape, and else for such a target, and never for anything else.
A story that is accepted is the one that was compiled, and it starts with the first node. -/
theorem compiled_stories_are_accepted_iff {text : String} {g : Graph}
    (h : (compile text).result = .ok g) :
    ((∃ g', Graph.ofContent g.toJson = .ok g') ↔
      g.nodes ≠ [] ∧ ∀ n ∈ g.nodes, ∀ t, n.PointsTo t → g.Leads t) ∧
    (∀ g', Graph.ofContent g.toJson = .ok g' → g' = g ∧ g.nodes.head?.map (·.id) = some g.start) ∧
    ∀ e, Graph.ofContent g.toJson = .error e →
      (g.nodes = [] ∧ e = .shape) ∨
        g.nodes ≠ [] ∧ ∃ n ∈ g.nodes, ∃ t,
          n.PointsTo t ∧ ¬g.Leads t ∧ e = .unknownTarget n.id t := by
  obtain ⟨ns, rfl, hnamed, hdistinct⟩ := nodes_of_compile h
  cases ns with
  | nil =>
    have hshape : Graph.ofContent (Graph.ofNodes "compiled" []).toJson = .error .shape := by
      rw [show Graph.ofContent (Graph.ofNodes "compiled" []).toJson =
        Graph.ofJson (Graph.ofNodes "compiled" []).toJson from rfl, Graph.ofJson,
        Graph.ofShape?_toJson_nil rfl]
    rw [hshape]
    refine ⟨by simp [Graph.ofNodes], nofun, ?_⟩
    rintro e ⟨⟩
    exact .inl ⟨rfl, rfl⟩
  | cons n rest =>
    have hne : (Graph.ofNodes "compiled" (n :: rest)).nodes ≠ [] := List.cons_ne_nil _ _
    rw [Graph.ofContent_ofNodes hnamed hdistinct]
    rcases Graph.unknownTarget?_cases (g := .ofNodes "compiled" (n :: rest)) hnamed with
      ⟨hnone, hleads⟩ | ⟨m, hm, t, hsome, htarget, hmissing⟩
    · rw [hnone]
      refine ⟨⟨fun _ => ⟨hne, hleads⟩, fun _ => ⟨_, rfl⟩⟩, ?_, nofun⟩
      rintro g' ⟨⟩
      exact ⟨rfl, rfl⟩
    · rw [hsome]
      refine ⟨⟨nofun, ?_⟩, nofun, ?_⟩
      · rintro ⟨-, hleads⟩
        exact absurd (hleads m hm t htarget) hmissing
      · rintro e ⟨⟩
        exact .inr ⟨hne, m, hm, t, htarget, hmissing, rfl⟩

/-- A choice may lead to the end, and to a node that comes later. -/
theorem hall_is_accepted :
    let text := "=== hall\n# char:host\nHi!\n* Up -> attic\n* Leave -> END\n== attic\n-> hall"
    let hall : Node := ⟨"hall", [⟨"Hi!", ["char:host"]⟩], [⟨"Up", "attic"⟩, ⟨"Leave", "END"⟩], none⟩
    let attic : Node := { id := "attic", next := some "hall" }
    let g : Graph := ⟨"compiled", "hall", [hall, attic]⟩
    (compile text).result = .ok g ∧ Graph.ofContent g.toJson = .ok g := by
  intro text hall attic g
  have hcompiled : (compile text).result = .ok g := by decide +kernel
  obtain ⟨haccepted, hsame, -⟩ := compiled_stories_are_accepted_iff hcompiled
  have hleads : ∀ n ∈ g.nodes, ∀ t, n.PointsTo t → g.Leads t := by
    simp only [g, hall, attic, Node.PointsTo, Graph.Leads, theEnd]
    simp +contextual [or_imp]
  obtain ⟨g', hg'⟩ := haccepted.2 ⟨List.cons_ne_nil _ _, hleads⟩
  obtain ⟨rfl, -⟩ := hsame g' hg'
  exact ⟨hcompiled, hg'⟩

end VisualNovel.Story
