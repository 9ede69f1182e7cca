import Mathlib.Data.List.Forall2
import VisualNovel.Story.ScriptFile
/-!
# Passages of a script

The statements of a script fall into passages, one for each of its nodes: what stands before the
first header belongs to `start`, if it says anything, and what stands behind a header, up to the next
one, to the node of that header (`passages`). Within a passage choices and the divert are taken over
as they come, and the tags of tag lines go to the next line of dialogue (`Attached`).

A draft grows by the statements between two headers (`Draft.Grows`), whatever it holds already. So
the nodes of a draft, and the tags it drops, are told passage by passage (`Draft.made_of_addAll`,
`made_of_compile`), and no tag of a script gets lost (`tags_stay_with_their_lines`).
-/
namespace VisualNovel.Story

/-! ## What statements say -/

namespace Statement

/-- The id in a header. -/
def header : Statement → Option String
  | .node id => some id
  | _ => none

/-- The choice that is offered. -/
def branch? : Statement → Option Branch
  | .choice text target => some ⟨text, target⟩
  | _ => none

/-- Where the node goes on. -/
def target? : Statement → Option String
  | .divert target => some target
  | _ => none

/-- The text of a line of dialogue. -/
def line? : Statement → Option String
  | .dialogue text _ => some text
  | _ => none

/-- The tags of a tag line, which wait for a line of dialogue. -/
def looseTags : Statement → List String
  | .tags ts => ts
  | _ => []

/-- The tags of a line of any kind. -/
def allTags : Statement → List String
  | .tags ts => ts
  | .dialogue _ ts => ts
  | _ => []

theorem looseTags_eq {s : Statement} (h : s.line? = none) : s.looseTags = s.allTags := by
  cases s with
  | dialogue text tags => cases h
  | _ => rfl

end Statement

/-! ## Lines and their tags -/

/-- What becomes of the lines and tags in some statements, when some tags wait already. The tags that
wait and those of tag lines stand in front of the own tags of the next line of dialogue; behind the
last line they are left. -/
inductive Attached : (waiting : List String) → (said : List Statement) → (lines : List Line) →
    (left : List String) → Prop
  | rest {waiting said} : (∀ s ∈ said, s.line? = none) →
    Attached waiting said [] (waiting ++ said.flatMap Statement.looseTags)
  | line {waiting before text own said lines left} : (∀ s ∈ before, s.line? = none) →
    Attached [] said lines left →
      Attached waiting (before ++ .dialogue text own :: said)
        (⟨text, waiting ++ before.flatMap Statement.looseTags ++ own⟩ :: lines) left

namespace Attached
variable {waiting left later : List String} {said more : List Statement} {lines below : List Line}

/-- Lines without dialogue in front only add to the tags that wait. -/
theorem prepend {before : List Statement} (hbefore : ∀ s ∈ before, s.line? = none)
    (h : Attached (waiting ++ before.flatMap Statement.looseTags) said lines left) :
    Attached waiting (before ++ said) lines left := by
  cases h with
  | rest hsaid =>
    rw [List.append_assoc, ← List.flatMap_append]
    exact .rest (List.forall_mem_append.2 ⟨hbefore, hsaid⟩)
  | line hfront hsaid =>
    rw [List.append_assoc waiting, ← List.flatMap_append, ← List.append_assoc]
    exact .line (List.forall_mem_append.2 ⟨hbefore, hfront⟩) hsaid

/-- The tags that are left wait for what follows. -/
theorem append (h : Attached waiting said lines left) (hmore : Attached left more below later) :
    Attached waiting (said ++ more) (lines ++ below) later := by
  induction h with
  | rest hsaid => exact hmore.prepend hsaid
  | line hbefore _ ih =>
    rw [List.append_assoc, List.cons_append]
    exact .line hbefore (ih hmore)

/-- No line is lost, and none is added. -/
theorem texts (h : Attached waiting said lines left) :
    lines.map (·.text) = said.filterMap Statement.line? := by
  induction h with
  | rest hsaid => exact (List.filterMap_eq_nil_iff.2 hsaid).symm
  | line hbefore _ ih =>
    rw [List.filterMap_append, List.filterMap_eq_nil_iff.2 hbefore, List.map_cons, ih]
    rfl

/-- No tag is lost, and none is added; they stay in their order. -/
theorem tags (h : Attached waiting said lines left) :
    waiting ++ said.flatMap Statement.allTags = lines.flatMap Line.tags ++ left := by
  have hloose {ss : List Statement} (hss : ∀ s ∈ ss, s.line? = none) :
      ss.flatMap Statement.looseTags = ss.flatMap Statement.allTags :=
    List.flatMap_congr fun s hs => Statement.looseTags_eq (hss s hs)
  induction h with
  | rest hsaid => rw [hloose hsaid]; rfl
  | line hbefore _ ih =>
    rw [List.nil_append] at ih
    rw [List.flatMap_append, List.flatMap_cons, List.flatMap_cons, hloose hbefore,
      List.append_assoc _ (List.flatMap Line.tags _), ← ih]
    simp [Statement.allTags]

end Attached

/-! ## Passages -/

/-- What belongs to one node. -/
structure Passage where
  id : String
  said : List Statement

/-- What stands before the first header, and the passages behind the headers. -/
def divide : List Statement → List Statement × List Passage
  | [] => ([], [])
  | s :: ss =>
    match s.header with
    | some id => ([], ⟨id, (divide ss).1⟩ :: (divide ss).2)
    | none => (s :: (divide ss).1, (divide ss).2)

/-- The passages of a script. What stands before the first header is one if it says anything. -/
def passages (ss : List Statement) : List Passage :=
  if ∀ s ∈ (divide ss).1, s = .nothing then (divide ss).2
  else ⟨"start", (divide ss).1⟩ :: (divide ss).2

theorem eq_of_divide (ss : List Statement) :
    ss = (divide ss).1 ++ (divide ss).2.flatMap fun p => .node p.id :: p.said := by
  induction ss with
  | nil => rfl
  | cons s ss ih =>
    cases s with
    | node id =>
      simp only [divide, Statement.header, List.nil_append, List.flatMap_cons, List.cons_append]
      rw [← ih]
    | _ =>
      simp only [divide, Statement.header, List.cons_append]
      rw [← ih]

/-- All that the statements of a script give is given by its passages, so long as headers and silent
lines give nothing. -/
theorem flatMap_passages {α : Type} {f : Statement → List α} (hheader : ∀ id, f (.node id) = [])
    (hnothing : f .nothing = []) (ss : List Statement) :
    ss.flatMap f = (passages ss).flatMap fun p => p.said.flatMap f := by
  have hnamed : ((divide ss).2.flatMap fun p => Statement.node p.id :: p.said).flatMap f =
      (divide ss).2.flatMap fun p => p.said.flatMap f := by
    rw [List.flatMap_assoc]
    exact List.flatMap_congr fun p _ => by rw [List.flatMap_cons, hheader, List.nil_append]
  conv_lhs => rw [eq_of_divide ss, List.flatMap_append, hnamed]
  unfold passages
  split
  · next hsilent =>
    rw [List.flatMap_eq_nil_iff.2 fun s hs => (hsilent s hs).symm ▸ hnothing, List.nil_append]
  · rfl

/-- So it is where a statement gives one thing at most. -/
theorem filterMap_passages {α : Type} {f : Statement → Option α} (hheader : ∀ id, f (.node id) = none)
    (hnothing : f .nothing = none) (ss : List Statement) :
    ss.filterMap f = (passages ss).flatMap fun p => p.said.filterMap f := by
  simp only [List.filterMap_eq_flatMap_toList]
  exact flatMap_passages (fun id => by rw [hheader]; rfl) (by rw [hnothing]; rfl) ss

/-- What a passage is made into: a node, and the tags that are left. -/
structure Passage.Makes (p : Passage) (n : Node) (left : List String) : Prop where
  id : n.id = p.id
  lines : Attached [] p.said n.lines left
  choices : n.choices = p.said.filterMap Statement.branch?
  next : n.next.toList = p.said.filterMap Statement.target?

/-- The report on the tags that are left of a node. -/
def leftover (n : Node) (left : List String) : Option Dangling :=
  if left.isEmpty then none else some ⟨left, n.id⟩

/-! ## Drafts -/

namespace Draft
variable {d d' d'' : Draft} {said more ss : List Statement} {s : Statement} {line : Nat}

/-- What statements without a header do to a draft. -/
structure Grows (d : Draft) (said : List Statement) (d' : Draft) : Prop where
  closed : d'.closed = d.closed
  dropped : d'.dropped = d.dropped
  begun : d'.current.isSome = true ↔ d.current.isSome = true ∨ ∃ s ∈ said, s ≠ .nothing
  id : d'.node.id = d.node.id
  lines : ∃ lines, d'.node.lines = d.node.lines ++ lines ∧
    Attached d.waiting said lines d'.waiting
  choices : d'.node.choices = d.node.choices ++ said.filterMap Statement.branch?
  next : d'.node.next.toList = d.node.next.toList ++ said.filterMap Statement.target?

theorem Grows.refl (d : Draft) : d.Grows [] d where
  closed := rfl
  dropped := rfl
  begun := by simp
  id := rfl
  lines := by
    have hnone : Attached d.waiting [] [] (d.waiting ++ []) := .rest (List.forall_mem_nil _)
    rw [List.append_nil] at hnone
    exact ⟨[], (List.append_nil _).symm, hnone⟩
  choices := (List.append_nil _).symm
  next := (List.append_nil _).symm

theorem Grows.trans (h : d.Grows said d') (hmore : d'.Grows more d'') :
    d.Grows (said ++ more) d'' where
  closed := hmore.closed.trans h.closed
  dropped := hmore.dropped.trans h.dropped
  begun := by
    rw [hmore.begun, h.begun]
    simp only [List.mem_append, or_and_right, exists_or, or_assoc]
  id := hmore.id.trans h.id
  lines := by
    obtain ⟨lines, hlines, hattached⟩ := h.lines
    obtain ⟨below, hbelow, hbeneath⟩ := hmore.lines
    exact ⟨lines ++ below, by rw [hbelow, hlines, List.append_assoc], hattached.append hbeneath⟩
  choices := by rw [hmore.choices, h.choices, List.filterMap_append, List.append_assoc]
  next := by rw [hmore.next, h.next, List.filterMap_append, List.append_assoc]

/-- One statement that is no header. -/
theorem Grows.add (hs : s.header = none) (h : d.add line s = .ok d') : d.Grows [s] d' := by
  have hquiet (hline : s.line? = none) (hwaiting : d'.waiting = d.waiting ++ s.looseTags)
      (hlines : d'.node.lines = d.node.lines) : ∃ lines,
        d'.node.lines = d.node.lines ++ lines ∧ Attached d.waiting [s] lines d'.waiting := by
    refine ⟨[], by rw [hlines, List.append_nil], ?_⟩
    have hrest : Attached d.waiting [s] [] (d.waiting ++ [s].flatMap Statement.looseTags) :=
      .rest (List.forall_mem_singleton.2 hline)
    rwa [List.flatMap_singleton, ← hwaiting] at hrest
  cases s with
  | nothing =>
    cases h
    exact ⟨rfl, rfl, by simp, rfl, hquiet rfl (List.append_nil _).symm rfl,
      (List.append_nil _).symm, (List.append_nil _).symm⟩
  | node id => cases hs
  | tags tags =>
    cases h
    exact ⟨rfl, rfl, by simp, rfl, hquiet rfl rfl rfl, (List.append_nil _).symm,
      (List.append_nil _).symm⟩
  | choice text target =>
    cases h
    exact ⟨rfl, rfl, by simp, rfl, hquiet rfl (List.append_nil _).symm rfl, rfl,
      (List.append_nil _).symm⟩
  | divert target =>
    rw [Draft.add] at h
    split at h
    · cases h
    · next hnext =>
      cases h
      refine ⟨rfl, rfl, by simp, rfl, hquiet rfl (List.append_nil _).symm rfl,
        (List.append_nil _).symm, ?_⟩
      rw [hnext]
      rfl
  | dialogue text tags =>
    rw [Draft.add] at h
    split at h
    · cases h
      refine ⟨rfl, rfl, by simp, rfl, ⟨[⟨text, d.waiting ++ tags⟩], rfl, ?_⟩,
        (List.append_nil _).symm, (List.append_nil _).symm⟩
      have hline : Attached d.waiting ([] ++ .dialogue text tags :: [])
          [⟨text, d.waiting ++ [] ++ tags⟩] [] :=
        .line (List.forall_mem_nil _) (.rest (List.forall_mem_nil _))
      rwa [List.append_nil] at hline
    · cases h

theorem node_of_current {n : Node} (h : d.current = some n) : d.node = n := by
  rw [Draft.node, h, Option.getD_some]

/-- The nodes of a draft whose node has begun, and the tags it drops at its end. -/
theorem close_eq (h : d.current.isSome = true) :
    d.close.nodes = d.closed ++ [d.node] ∧
      d.close.dropped = d.dropped ++ (leftover d.node d.waiting).toList := by
  obtain ⟨n, hcurrent⟩ := Option.isSome_iff_exists.1 h
  rw [node_of_current hcurrent]
  refine ⟨by simp [Draft.close, Draft.nodes, hcurrent], ?_⟩
  simp only [Draft.close, dangling, hcurrent, leftover]
  split <;> rfl

/-- What a draft holds once it has taken in some statements: it has grown by what stands before the
first header, and each passage behind a header has been made into a node. -/
theorem made_of_addAll (h : d.addAll line ss = (d', none)) :
    ∃ d₁, d.Grows (divide ss).1 d₁ ∧ ∃ made : List (Node × List String),
      List.Forall₂ (fun p m => p.Makes m.1 m.2) (divide ss).2 made ∧
      d'.close.nodes = d₁.close.nodes ++ made.map Prod.fst ∧
      d'.close.dropped = d₁.close.dropped ++ made.filterMap fun m => leftover m.1 m.2 := by
  induction ss generalizing d line with
  | nil =>
    cases h
    exact ⟨_, .refl _, [], .nil, (List.append_nil _).symm, (List.append_nil _).symm⟩
  | cons s ss ih =>
    rw [addAll] at h
    split at h
    · cases h
    · next d₀ hadd =>
      obtain ⟨d₁, hgrows, made, hmade, hnodes, hdropped⟩ := ih h
      cases hs : s.header with
      | none =>
        rw [divide, hs]
        exact ⟨d₁, (Grows.add hs hadd).trans hgrows, made, hmade, hnodes, hdropped⟩
      | some id =>
        obtain rfl : s = .node id := by cases s <;> cases hs; rfl
        cases hadd
        -- The node of this header has begun, with nothing in it.
        have hbegun : d₁.current.isSome = true := hgrows.begun.2 (.inl rfl)
        obtain ⟨hclose, hleft⟩ := close_eq hbegun
        obtain ⟨lines, hlines, hattached⟩ := hgrows.lines
        have hmakes : Passage.Makes ⟨id, (divide ss).1⟩ d₁.node d₁.waiting :=
          ⟨hgrows.id, by rw [hlines]; exact hattached, hgrows.choices, hgrows.next⟩
        refine ⟨d, .refl d, (d₁.node, d₁.waiting) :: made, .cons hmakes hmade, ?_, ?_⟩
        · rw [hnodes, hclose, hgrows.closed, List.append_assoc]
          simp [Draft.close, Draft.nodes]
        · rw [hdropped, hleft, hgrows.dropped, List.append_assoc]
          cases hleftover : leftover d₁.node d₁.waiting <;> simp [Draft.close, hleftover]

end Draft

/-- A script that is read without a fault is made into nodes passage by passage. -/
theorem made_of_statements {ss : List Statement} {line : Nat} {d : Draft}
    (h : Draft.addAll {} line ss = (d, none)) :
    ∃ made : List (Node × List String),
      List.Forall₂ (fun p m => p.Makes m.1 m.2) (passages ss) made ∧
      d.close.nodes = made.map Prod.fst ∧
      d.close.dropped = made.filterMap fun m => leftover m.1 m.2 := by
  obtain ⟨d₁, hgrows, made, hmade, hnodes, hdropped⟩ := Draft.made_of_addAll h
  unfold passages
  split
  · next hsilent =>
    have hnone : d₁.current = none := by
      rw [← Option.not_isSome_iff_eq_none, hgrows.begun]
      rintro (hcurrent | ⟨s, hs, hne⟩)
      · cases hcurrent
      · exact hne (hsilent s hs)
    have hclosed : d₁.closed = [] := hgrows.closed
    have hdropped₁ : d₁.dropped = [] := hgrows.dropped
    refine ⟨made, hmade, ?_, ?_⟩
    · rw [hnodes]
      simp [Draft.close, Draft.nodes, hnone, hclosed]
    · rw [hdropped]
      simp [Draft.close, Draft.dangling, hnone, hdropped₁]
  · next hsays =>
    have hbegun : d₁.current.isSome = true := hgrows.begun.2 (.inr (by simpa using hsays))
    obtain ⟨hclose, hleft⟩ := Draft.close_eq hbegun
    obtain ⟨lines, hlines, hattached⟩ := hgrows.lines
    have hmakes : Passage.Makes ⟨"start", (divide ss).1⟩ d₁.node d₁.waiting :=
      ⟨hgrows.id, by rw [hlines]; exact hattached, hgrows.choices, hgrows.next⟩
    refine ⟨(d₁.node, d₁.waiting) :: made, .cons hmakes hmade, ?_, ?_⟩
    · rw [hnodes, hclose, hgrows.closed]
      rfl
    · rw [hdropped, hleft, hgrows.dropped]
      cases hleftover : leftover d₁.node d₁.waiting <;> simp [hleftover]

/-- A script that compiles is made into a story passage by passage. -/
theorem made_of_compile {text : String} {g : Graph} (h : (compile text).result = .ok g) :
    ∃ made : List (Node × List String),
      List.Forall₂ (fun p m => p.Makes m.1 m.2) (passages (statements text)) made ∧
      g.nodes = made.map Prod.fst ∧
      (compile text).dropped = made.filterMap fun m => leftover m.1 m.2 := by
  unfold compile at h ⊢
  split at h
  · cases h
  · next d hread =>
    obtain ⟨made, hmade, hnodes, hdropped⟩ := made_of_statements hread
    dsimp only at h ⊢
    split at h
    · cases h
    · next hdistinct =>
      cases h
      exact ⟨made, hmade, hnodes, hdropped⟩

/-- What each passage gives its node, all passages give all nodes. -/
theorem flatMap_of_made {α : Type} {f : Passage → List α} {g : Node × List String → List α}
    {ps : List Passage} {made : List (Node × List String)}
    (h : List.Forall₂ (fun p m => p.Makes m.1 m.2) ps made)
    (hfg : ∀ p m, p.Makes m.1 m.2 → f p = g m) : ps.flatMap f = made.flatMap g := by
  induction h with
  | nil => rfl
  | cons hmakes _ ih => rw [List.flatMap_cons, List.flatMap_cons, hfg _ _ hmakes, ih]

/-- The tags of a script are those of the lines in its nodes, and those that are left. -/
theorem tags_of_made {ss : List Statement} {made : List (Node × List String)}
    (h : List.Forall₂ (fun p m => p.Makes m.1 m.2) (passages ss) made) :
    ss.flatMap Statement.allTags = made.flatMap fun m => m.1.lines.flatMap Line.tags ++ m.2 := by
  rw [flatMap_passages (fun _ => rfl) rfl]
  exact flatMap_of_made h fun _ _ hm => hm.lines.tags

/-- **Tags stay with their lines.** A script that compiles is made into nodes passage by passage. In
the node of a passage each line has the tags that waited for it and then its own. Those that no line
of their passage follows are told in one report, which names the node, and nothing else is reported.
So the tags of the script are those of the lines and of the reports, each once and in one order. -/
theorem tags_stay_with_their_lines {text : String} {g : Graph}
    (h : (compile text).result = .ok g) :
    ∃ made : List (Node × List String), g.nodes = made.map Prod.fst ∧
      List.Forall₂ (fun p m => m.1.id = p.id ∧ Attached [] p.said m.1.lines m.2)
        (passages (statements text)) made ∧
      (compile text).log =
        (made.filterMap fun m => leftover m.1 m.2).map (fun d => Log.warning d.message) ∧
      (statements text).flatMap Statement.allTags =
        made.flatMap fun m => m.1.lines.flatMap Line.tags ++ m.2 := by
  obtain ⟨made, hmade, hnodes, hdropped⟩ := made_of_compile h
  refine ⟨made, hnodes, hmade.imp fun _ _ hm => ⟨hm.id, hm.lines⟩, ?_, tags_of_made hmade⟩
  rw [Compilation.log, hdropped]

/-- Tags in front of a comment and of an empty line wait, those in front of a header do not. -/
theorem loft_keeps_its_tags :
    let text := "# calm\n// Come in.\n\nHi! # char:host\n# loud\n* Up -> loft\n== loft\n#dark# old\nHm."
    let start : Node := ⟨"start", [⟨"Hi!", ["calm", "char:host"]⟩], [⟨"Up", "loft"⟩], none⟩
    let loft : Node := { id := "loft", lines := [⟨"Hm.", ["dark", "old"]⟩] }
    (compile text).result = .ok ⟨"compiled", "start", [start, loft]⟩ ∧
      ∃ made : List (Node × List String), [start, loft] = made.map Prod.fst ∧
        (compile text).log =
          (made.filterMap fun m => leftover m.1 m.2).map (fun d => Log.warning d.message) ∧
        ["calm", "char:host", "loud", "dark", "old"] =
          made.flatMap fun m => m.1.lines.flatMap Line.tags ++ m.2 := by
  intro text start loft
  have hcompiled : (compile text).result = .ok ⟨"compiled", "start", [start, loft]⟩ := by
    decide +kernel
  obtain ⟨made, hnodes, -, hlog, htags⟩ := tags_stay_with_their_lines hcompiled
  have htold : (statements text).flatMap Statement.allTags =
      ["calm", "char:host", "loud", "dark", "old"] := by decide +kernel
  exact ⟨hcompiled, made, hnodes, hlog, htold.symm.trans htags⟩

end VisualNovel.Story
