import VisualNovel.Proofs.Story.Moves
import VisualNovel.Proofs.Story.Shapes
/-!
# Stories read in place

A manuscript is a story as it was handed in. It holds the JSON values of its nodes, and looks into
them again each time that something is needed: nothing is read beforehand, and no look is guarded.
So a look may go wrong (`Slip`), where a member is missing, an item or a node is not there, or a
value is of another kind.

A value of the right shape is opened without a slip, and refused for the same fault as the graph
that is read from it (`openData_of_shape`). If it is not refused, every look finds what a player has
before it (`Mirrors`), so that a manuscript is played as a player plays (`Mirrors.moves`).
-/
namespace VisualNovel.Story

/-- Why a look into a value finds nothing. -/
inductive Slip where
  | noMember (name : String)
  | noItem (number : Nat)
  | noNode (id : String)
  | kind
  deriving DecidableEq, Repr

/-- What is found, or why nothing is. -/
abbrev Look := Except Slip

namespace Look

/-- What there is. -/
def found {α : Type} (slip : Slip) : Option α → Look α
  | some x => .ok x
  | none => .error slip

/-- A member that has to be there. -/
def member (name : String) : Json → Look Json
  | .obj members => found (.noMember name) (members.lookup name)
  | _ => .error .kind

/-- A member, or a default in its place. -/
def memberOr (name : String) (default : Json) : Json → Look Json
  | .obj members => .ok ((members.lookup name).getD default)
  | _ => .error .kind

/-- The items of a list. -/
def items : Json → Look (List Json)
  | .arr items => .ok items
  | _ => .error .kind

/-- A text. -/
def text : Json → Look String
  | .str s => .ok s
  | _ => .error .kind

/-- The item with a number. -/
def item (number : Nat) (items : List Json) : Look Json := found (.noItem number) items[number]?

/-- The items of a member; none if it is left out. -/
def itemsOf (name : String) (j : Json) : Look (List Json) := do items (← memberOr name (.arr []) j)

/-- The text of a member. -/
def textOf (name : String) (j : Json) : Look String := do text (← member name j)

end Look

/-- A story as it was handed in, and how far it has been played. -/
structure Manuscript where
  id : String
  /-- The nodes under their ids. -/
  nodes : List (String × Json)
  /-- The node where it stands; nothing once the story has ended. -/
  node : Option Json := none
  read : Nat := 0
  tags : List String := []

namespace Manuscript

/-- The node with an id. -/
def find (m : Manuscript) (id : String) : Look Json := Look.found (.noNode id) (m.nodes.lookup id)

/-- Whether there is a line to read. -/
def canContinue (m : Manuscript) : Look Bool :=
  match m.node with
  | none => .ok false
  | some node => do return m.read < (← Look.itemsOf "lines" node).length

/-- The story has come to its end. -/
def ended (m : Manuscript) : Manuscript := { m with node := none }

/-- What is reported of a chain of nodes that leads nowhere. -/
def loopReport (m : Manuscript) : Log.Entry :=
  Log.error ("Story '" ++ m.id ++ "' loops through nodes without lines; ending it")

/-- Follows a chain of nodes for at most `fuel` steps. -/
def follow : (fuel : Nat) → Manuscript → Look (Manuscript × List Log.Entry)
  | 0, m => .ok (m.ended, [m.loopReport])
  | fuel + 1, m =>
    match m.node with
    | none => .ok (m, [])
    | some node => do
      if ← m.canContinue then return (m, [])
      if !(← Look.itemsOf "choices" node).isEmpty then return (m, [])
      let target ← Look.memberOr "next" .null node
      if !target.isTruthy || target = .str theEnd then return (m.ended, [])
      let node ← m.find (← Look.text target)
      follow fuel { m with node := some node, read := 0 }

/-- Follows a chain of nodes as far as it can lead somewhere. -/
def flow (m : Manuscript) : Look (Manuscript × List Log.Entry) := m.follow (m.nodes.length + 1)

/-- Goes to the start of a node. -/
def goTo (m : Manuscript) (target : String) : Look (Manuscript × List Log.Entry) := do
  let node ← if target = theEnd then pure none else some <$> m.find target
  flow { m with node, read := 0 }

/-- Reads the next line. -/
def continue? (m : Manuscript) : Look (Manuscript × Reply × List Log.Entry) := do
  if !(← m.canContinue) then return (m, .refused .noLine, [])
  match m.node with
  | none => .error .kind
  | some node =>
    let line ← Look.item m.read (← Look.items (← Look.member "lines" node))
    let tags ← (← Look.itemsOf "tags" line).mapM Look.text
    let (m, log) ← flow { m with read := m.read + 1, tags }
    return (m, .line (← Look.textOf "text" line), log)

/-- The choices on offer. -/
def choices (m : Manuscript) : Look (List Json) := do
  if ← m.canContinue then return []
  match m.node with
  | none => return []
  | some node => Look.itemsOf "choices" node

/-- The choices on offer, numbered. -/
def offers (m : Manuscript) : Look (List Choice) := do
  let texts ← (← m.choices).mapM (Look.textOf "text")
  return texts.mapIdx fun i text => ⟨text, i⟩

/-- Takes the choice with a number. -/
def choose? (m : Manuscript) (index : Int) : Look (Manuscript × Reply × List Log.Entry) := do
  let choices ← m.choices
  if 0 ≤ index ∧ index < choices.length then
    let target ← Look.textOf "next" (← Look.item index.toNat choices)
    let (m, log) ← goTo { m with tags := [] } target
    return (m, .chosen, log)
  else return (m, .refused (.noChoice (.int index) choices.length), [])

/-- Makes a move. -/
def move (m : Manuscript) : Move → Look (Manuscript × Reply × List Log.Entry)
  | .read => m.continue?
  | .choose index => m.choose? index

/-- Makes moves in order. -/
def moves : List Move → Manuscript → Look (Manuscript × List (Reply × List Log.Entry))
  | [], m => .ok (m, [])
  | a :: rest, m => do
    let (m, answer) ← m.move a
    let (m, answers) ← moves rest m
    return (m, answer :: answers)

/-! ## Opening -/

/-- Puts nodes under their ids, behind those that were put there. -/
def enter : (done : List (String × Json)) → List Json →
    Look (Except FormatError (List (String × Json)))
  | done, [] => .ok (.ok done)
  | done, node :: rest => do
    let id ← Look.textOf "id" node
    if (done.lookup id).isSome then return .error (.duplicate id)
    enter (done ++ [(id, node)]) rest

/-- The targets of a node: of its choices, then the node it goes on with. -/
def targets (node : Json) : Look (List String) := do
  let chosen ← (← Look.itemsOf "choices" node).mapM (Look.textOf "next")
  let next ← Look.memberOr "next" .null node
  if next.isTruthy then return chosen ++ [← Look.text next] else return chosen

/-- The first target of some nodes that is not among all of them, with its node. -/
def unknownTarget? (all : List (String × Json)) :
    List (String × Json) → Look (Option (String × String))
  | [] => .ok none
  | (_, node) :: rest => do
    match (← targets node).find? fun t => t ≠ theEnd ∧ (all.lookup t).isNone with
    | some target => return some (← Look.textOf "id" node, target)
    | none => unknownTarget? all rest

/-- The start of a story: the one it names, or its first node. -/
def startOf (data : Json) : Look String := do
  let start ← Look.memberOr "start" .null data
  if start.isTruthy then Look.text start
  else Look.textOf "id" (← Look.item 0 (← Look.items (← Look.member "nodes" data)))

/-- Opens a story of the right shape. -/
def openData (data : Json) : Look (Except FormatError (Manuscript × List Log.Entry)) := do
  let id ← Look.text (← Look.memberOr "id" (.str "story") data)
  match ← enter [] (← Look.items (← Look.member "nodes" data)) with
  | .error e => return .error e
  | .ok nodes =>
    match ← unknownTarget? nodes nodes with
    | some (node, target) => return .error (.unknownTarget node target)
    | none =>
      let start ← startOf data
      if (nodes.lookup start).isNone then return .error (.unknownStart start)
      return .ok (← goTo { id, nodes } start)

end Manuscript

/-! ## What looks find -/

namespace Look

theorem itemsOf_eq {α : Type} {read : Json → Option α} {name : String}
    {members : List (String × Json)} {xs : List α} (h : Lists read (members.lookup name) xs) :
    ∃ items, itemsOf name (.obj members) = .ok items ∧
      List.Forall₂ (fun j x => read j = some x) items xs := by
  rcases h with ⟨hnone, rfl⟩ | ⟨items, hsome, hitems⟩
  · exact ⟨[], by rw [itemsOf, memberOr, hnone]; rfl, .nil⟩
  · exact ⟨items, by rw [itemsOf, memberOr, hsome]; rfl, hitems⟩

theorem textOf_eq {name s : String} {members : List (String × Json)}
    (h : members.lookup name = some (.str s)) : textOf name (.obj members) = .ok s := by
  rw [textOf, member, h]
  rfl

theorem mapM_eq {α β : Type} {R : Json → α → Prop} {look : Json → Look β} {f : α → β}
    (hlook : ∀ j x, R j x → look j = .ok (f x)) {items : List Json} {xs : List α}
    (h : List.Forall₂ R items xs) : items.mapM look = .ok (xs.map f) := by
  induction h with
  | nil => rfl
  | cons hx _ ih =>
    rw [List.mapM_cons, hlook _ _ hx, ih]
    rfl

theorem item_eq {α : Type} {R : Json → α → Prop} {items : List Json} {xs : List α}
    (h : List.Forall₂ R items xs) {k : Nat} {x : α} (hx : xs[k]? = some x) :
    ∃ j, item k items = .ok j ∧ R j x := by
  have hitem : ∃ j, items[k]? = some j ∧ R j x := by
    induction h generalizing k with
    | nil => cases hx
    | @cons j y _ _ hR _ ih =>
      cases k with
      | zero =>
        cases hx
        exact ⟨j, rfl, hR⟩
      | succ k => exact ih hx
  obtain ⟨j, hj, hR⟩ := hitem
  exact ⟨j, by rw [item, hj]; rfl, hR⟩

end Look

/-- Looking into a line finds what a line holds. -/
structure Line.Seen (j : Json) (l : Line) : Prop where
  text : Look.textOf "text" j = .ok l.text
  tags : ∃ items, Look.itemsOf "tags" j = .ok items ∧ items.mapM Look.text = .ok l.tags

/-- Looking into a choice finds what a choice holds. -/
structure Branch.Seen (j : Json) (b : Branch) : Prop where
  text : Look.textOf "text" j = .ok b.text
  next : Look.textOf "next" j = .ok b.next

/-- Looking into a node finds what a node holds. -/
structure Node.Seen (j : Json) (n : Node) : Prop where
  id : Look.textOf "id" j = .ok n.id
  lines : ∃ items, Look.itemsOf "lines" j = .ok items ∧ List.Forall₂ Line.Seen items n.lines
  /-- If there are lines, their member is there. -/
  member : n.lines ≠ [] → ∃ items, Look.member "lines" j = .ok (.arr items) ∧
    List.Forall₂ Line.Seen items n.lines
  choices : ∃ items, Look.itemsOf "choices" j = .ok items ∧ List.Forall₂ Branch.Seen items n.choices
  next : Look.memberOr "next" .null j = .ok (n.next.elim .null .str)

theorem Line.seen_of_ofJson? {j : Json} {l : Line} (h : Line.ofJson? j = some l) : l.Seen j := by
  obtain ⟨members, rfl, htext, htags⟩ := Line.members_of_ofJson? h
  obtain ⟨items, hitems, hread⟩ := Look.itemsOf_eq htags
  have htexts : items.mapM Look.text = .ok (l.tags.map id) := by
    apply Look.mapM_eq _ hread
    intro j s hs
    rw [text?_eq_some hs]
    rfl
  exact ⟨Look.textOf_eq htext, items, hitems, by rwa [List.map_id] at htexts⟩

theorem Node.seen_of_ofJson? {j : Json} {n : Node} (h : Node.ofJson? j = some n) : n.Seen j := by
  obtain ⟨members, rfl, hid, hlines, hchoices, hnext⟩ := Node.members_of_ofJson? h
  refine ⟨Look.textOf_eq hid, ?_, ?_, ?_, by rw [Look.memberOr, hnext]⟩
  · obtain ⟨items, hitems, hread⟩ := Look.itemsOf_eq hlines
    exact ⟨items, hitems, hread.imp fun _ _ => Line.seen_of_ofJson?⟩
  · intro hne
    obtain ⟨items, hsome, hread⟩ := hlines.resolve_left fun hnone => hne hnone.2
    refine ⟨items, ?_, hread.imp fun _ _ => Line.seen_of_ofJson?⟩
    rw [Look.member, hsome]
    rfl
  · obtain ⟨items, hitems, hread⟩ := Look.itemsOf_eq hchoices
    refine ⟨items, hitems, hread.imp ?_⟩
    intro j b hb
    obtain ⟨members, rfl, htext, hnext, -⟩ := Branch.members_of_ofJson? hb
    exact ⟨Look.textOf_eq htext, Look.textOf_eq hnext⟩

/-- Under their ids are found what nodes hold. -/
def Filed (files : List (String × Json)) (ns : List Node) : Prop :=
  List.Forall₂ (fun file n => file.1 = n.id ∧ n.Seen file.2) files ns

theorem Filed.lookup {files : List (String × Json)} {ns : List Node} (h : Filed files ns)
    (id : String) : Option.Rel (fun j n => n.Seen j) (files.lookup id) (ns.find? (·.id = id)) := by
  induction h with
  | nil => exact .none
  | @cons file n files ns hfile _ ih =>
    obtain ⟨key, j⟩ := file
    obtain ⟨rfl, hj⟩ := hfile
    rw [Assoc.lookup_cons, List.find?_cons]
    by_cases hid : n.id = id
    · rw [if_pos hid.symm, decide_eq_true hid]
      exact .some hj
    · rw [if_neg (Ne.symm hid), decide_eq_false hid]
      exact ih

/-! ## A manuscript and a player -/

/-- A manuscript and a player stand at the same: in the nodes of the one is found what those of the
other hold. -/
structure Manuscript.Mirrors (m : Manuscript) (p : Player) : Prop where
  id : m.id = p.graph.id
  nodes : Filed m.nodes p.graph.nodes
  place : Option.Rel (fun j q => q.node.Seen j ∧ m.read = q.read) m.node p.place
  tags : m.tags = p.tags

namespace Manuscript.Mirrors
variable {m : Manuscript} {p : Player}

theorem find (h : m.Mirrors p) {id : String} {n : Node} (hn : p.graph.node? id = some n) :
    ∃ j, m.find id = .ok j ∧ n.Seen j := by
  have hrel := h.nodes.lookup id
  rw [show p.graph.nodes.find? (·.id = id) = some n from hn] at hrel
  rw [Manuscript.find]
  cases hlookup : m.nodes.lookup id with
  | none =>
    rw [hlookup] at hrel
    cases hrel
  | some j =>
    rw [hlookup] at hrel
    cases hrel with
    | some hj => exact ⟨j, rfl, hj⟩

/-- The node where a manuscript stands. -/
theorem node (h : m.Mirrors p) {q : Place} (hq : p.place = some q) :
    ∃ j, m.node = some j ∧ q.node.Seen j ∧ m.read = q.read := by
  have hplace := h.place
  rw [hq] at hplace
  cases hm : m.node with
  | none =>
    rw [hm] at hplace
    cases hplace
  | some j =>
    rw [hm] at hplace
    cases hplace with
    | some hj => exact ⟨j, rfl, hj⟩

theorem node_none (h : m.Mirrors p) (hp : p.place = none) : m.node = none := by
  have hplace := h.place
  rw [hp] at hplace
  cases hm : m.node with
  | none => rfl
  | some j =>
    rw [hm] at hplace
    cases hplace

theorem canContinue (h : m.Mirrors p) : m.canContinue = .ok p.canContinue := by
  unfold Manuscript.canContinue Player.canContinue
  cases hp : p.place with
  | none =>
    rw [h.node_none hp]
    rfl
  | some q =>
    obtain ⟨j, hm, hseen, hread⟩ := h.node hp
    obtain ⟨items, hitems, hlines⟩ := hseen.lines
    simp only [hm, hitems, bind, Except.bind, pure, Except.pure, hread, hlines.length_eq]
    rfl

theorem ended (h : m.Mirrors p) : m.ended.Mirrors { p with place := none } :=
  ⟨h.id, h.nodes, .none, h.tags⟩

/-- A manuscript follows a chain of nodes to where a player does. -/
theorem follow (hg : p.graph.Sound) (h : m.Mirrors p) {q : Place} (hq : p.place = some q)
    (hmem : q.node ∈ p.graph.nodes) (fuel : Nat) :
    ∃ m', m.follow fuel = .ok (m', p.graph.reports (p.graph.follow fuel q)) ∧
      m'.Mirrors { p with place := (p.graph.follow fuel q).place? } := by
  induction fuel generalizing m p q with
  | zero => exact ⟨m.ended, by rw [Manuscript.follow, loopReport, h.id]; rfl, h.ended⟩
  | succ fuel ih =>
    obtain ⟨j, hm, hseen, hread⟩ := h.node hq
    obtain ⟨items, hitems, hchoices⟩ := hseen.choices
    have hline : m.canContinue = .ok q.hasLine := by
      rw [h.canContinue, Player.canContinue, hq]
      rfl
    have hnone : items.isEmpty = q.node.choices.isEmpty := by
      rw [Bool.eq_iff_iff, List.isEmpty_iff_length_eq_zero, List.isEmpty_iff_length_eq_zero,
        hchoices.length_eq]
    have hstays : m.Mirrors { p with place := some q } := by
      rw [← hq]
      exact h
    rw [Manuscript.follow, Graph.follow, Place.holds]
    simp only [hm, hline, hitems, hnone, hseen.next, bind, Except.bind]
    cases hhas : q.hasLine with
    | true => exact ⟨m, rfl, hstays⟩
    | false =>
      cases hempty : q.node.choices.isEmpty with
      | false => exact ⟨m, rfl, hstays⟩
      | true =>
        rcases hg.exits_or_links hmem with ⟨hexit, hnext⟩ | ⟨n, hlink, hnext⟩
        · rw [hnext]
          refine ⟨m.ended, ?_, h.ended⟩
          rcases hexit with hexit | hexit | hexit <;> rw [hexit] <;> rfl
        · obtain ⟨j', hfind, hseen'⟩ := h.find (hg.node?_iff.2 ⟨hlink.mem, rfl⟩)
          obtain ⟨m', hfollow, hm'⟩ := ih (m := { m with node := some j', read := 0 })
            (p := { p with place := some ⟨n, 0⟩ }) hg
            ⟨h.id, h.nodes, .some ⟨hseen', rfl⟩, h.tags⟩ rfl hlink.mem
          have hgoes : ¬(!((some n.id).elim Json.null .str).isTruthy ||
              decide ((some n.id).elim Json.null .str = .str theEnd)) = true := by
            simp [Json.isTruthy, hlink.named, hlink.notEnd]
          rw [hnext, hlink.next]
          refine ⟨m', ?_, hm'⟩
          rw [if_neg Bool.false_ne_true, if_neg (by decide), if_neg hgoes]
          simp only [Option.elim_some, Look.text, hfind]
          exact hfollow

/-- A manuscript goes through a chain of nodes as a player does. -/
theorem flow (hg : p.graph.Sound) (h : m.Mirrors p) {q : Place} (hq : p.place = some q)
    (hmem : q.node ∈ p.graph.nodes) :
    ∃ m', m.flow = .ok (m', p.graph.reports (p.graph.arrive q)) ∧
      m'.Mirrors { p with place := (p.graph.arrive q).place? } := by
  rw [Manuscript.flow, Graph.arrive, List.Forall₂.length_eq h.nodes]
  exact h.follow hg hq hmem _

/-- A manuscript goes to a target that is there as a player does. -/
theorem goTo (hg : p.graph.Sound) (h : m.Mirrors p) {t : String}
    (ht : t = theEnd ∨ ∃ n ∈ p.graph.nodes, n.id = t) :
    ∃ m', m.goTo t = .ok (m', (p.goTo t).2) ∧ m'.Mirrors (p.goTo t).1 := by
  rw [Manuscript.goTo, Player.goTo]
  by_cases hend : t = theEnd
  · rw [if_pos hend, if_pos hend]
    exact ⟨_, rfl, h.id, h.nodes, .none, h.tags⟩
  · obtain ⟨n, hn, rfl⟩ := ht.resolve_left hend
    have hnode := hg.node?_iff.2 ⟨hn, rfl⟩
    obtain ⟨j, hfind, hseen⟩ := h.find hnode
    rw [if_neg hend, if_neg hend, hnode, hfind]
    simp only [Player.settle_eq]
    exact flow (m := { m with node := some j, read := 0 }) (p := { p with place := some ⟨n, 0⟩ }) hg
      ⟨h.id, h.nodes, .some ⟨hseen, rfl⟩, h.tags⟩ rfl hn

/-- The choices that a manuscript offers are those of a player. -/
theorem choices (h : m.Mirrors p) :
    ∃ items, m.choices = .ok items ∧ List.Forall₂ Branch.Seen items p.branches := by
  rw [Manuscript.choices, h.canContinue]
  unfold Player.branches Player.canContinue
  cases hp : p.place with
  | none =>
    rw [h.node_none hp]
    exact ⟨[], rfl, .nil⟩
  | some q =>
    obtain ⟨j, hm, hseen, -⟩ := h.node hp
    rw [hm]
    cases hhas : q.hasLine with
    | true => exact ⟨[], by simp [hhas]; rfl, by simp [hhas]⟩
    | false =>
      obtain ⟨items, hitems, hchoices⟩ := hseen.choices
      exact ⟨items, by simp [hhas, hitems]; rfl, by simpa [hhas] using hchoices⟩

theorem offers (h : m.Mirrors p) : m.offers = .ok p.choices := by
  obtain ⟨items, hitems, hbranches⟩ := h.choices
  have htexts : items.mapM (Look.textOf "text") = .ok (p.branches.map (·.text)) :=
    Look.mapM_eq (fun _ _ h => h.text) hbranches
  rw [Manuscript.offers, hitems, Player.choices]
  simp only [htexts, bind, Except.bind]
  exact congrArg Except.ok (List.ext_getElem (by simp) (by simp))

/-- A manuscript is read on as a player reads on. -/
theorem read (h : m.Mirrors p) (hg : p.graph.Sound) (hp : p.Stands p.graph) :
    ∃ m', m.continue? = .ok (m', (p.move .read).2) ∧ m'.Mirrors (p.move .read).1 := by
  rw [Manuscript.continue?, h.canContinue]
  cases hcan : p.canContinue with
  | false =>
    rw [Player.move_read_refused hcan]
    exact ⟨m, rfl, h⟩
  | true =>
    obtain ⟨q, line, hq, hline⟩ := Player.line_of_canContinue hcan
    obtain ⟨hmem, -⟩ := hp.place q hq
    obtain ⟨a, harrive, hmove, -⟩ := hp.read hg hq hline
    obtain rfl := (hg.arrive_iff (p := ⟨q.node, q.read + 1⟩) hmem).2 harrive
    obtain ⟨j, hm, hseen, hread⟩ := h.node hq
    obtain ⟨items, hitems, hlines⟩ := hseen.member (List.ne_nil_of_mem (List.mem_of_getElem? hline))
    obtain ⟨jl, hitem, hjl⟩ := Look.item_eq hlines hline
    obtain ⟨tags, htags, htexts⟩ := hjl.tags
    obtain ⟨m', hflow, hm'⟩ := flow
      (m := { m with read := m.read + 1, tags := line.tags })
      (p := { p with place := some ⟨q.node, q.read + 1⟩, tags := line.tags }) hg
      ⟨h.id, h.nodes, by rw [hm, hread]; exact .some ⟨hseen, rfl⟩, rfl⟩ rfl hmem
    rw [hmove]
    refine ⟨m', ?_, hm'⟩
    simp only [hm, hread] at hflow ⊢
    simp only [hitems, Look.items, hitem, htags, htexts, hjl.text, bind, Except.bind]
    simp only [hflow]
    rfl

/-- A choice is taken in a manuscript as a player takes it. -/
theorem choose (h : m.Mirrors p) (hg : p.graph.Sound) (hp : p.Stands p.graph) (i : Int) :
    ∃ m', m.choose? i = .ok (m', (p.move (.choose i)).2) ∧ m'.Mirrors (p.move (.choose i)).1 := by
  obtain ⟨items, hitems, hbranches⟩ := h.choices
  rw [Manuscript.choose?, hitems]
  simp only [bind, Except.bind, hbranches.length_eq]
  by_cases hi : 0 ≤ i ∧ i < p.branches.length
  · obtain ⟨k, rfl⟩ := Int.eq_ofNat_of_zero_le hi.1
    have hk : k < p.branches.length := by omega
    have hb := List.getElem?_eq_getElem hk
    obtain ⟨j, hitem, hseen⟩ := Look.item_eq hbranches hb
    obtain ⟨m', hgo, hm'⟩ := goTo (m := { m with tags := [] }) (p := { p with tags := [] }) hg
      ⟨h.id, h.nodes, h.place, rfl⟩ (hp.offers_known hg (List.mem_of_getElem? hb))
    rw [if_pos hi, Player.move_choose_taken hb]
    refine ⟨m', ?_, hm'⟩
    simp only [Int.toNat_natCast, hitem, hseen.next, hgo]
    rfl
  · rw [if_neg hi, Player.move_choose_refused hi]
    exact ⟨m, rfl, h⟩

/-- A manuscript makes a move as a player does. -/
theorem move (h : m.Mirrors p) (hg : p.graph.Sound) (hp : p.Stands p.graph) (a : Move) :
    ∃ m', m.move a = .ok (m', (p.move a).2) ∧ m'.Mirrors (p.move a).1 := by
  cases a with
  | read => exact h.read hg hp
  | choose i => exact h.choose hg hp i

/-- A manuscript makes moves in order as a player does, and no look goes wrong. -/
theorem moves {g : Graph} (h : m.Mirrors p) (hg : g.Sound) (hp : p.Stands g) (ms : List Move) :
    ∃ m', m.moves ms = .ok (m', (p.moves ms).2) ∧ m'.Mirrors (p.moves ms).1 := by
  induction ms generalizing m p with
  | nil => exact ⟨m, rfl, h⟩
  | cons a ms ih =>
    obtain ⟨-, -, -, hstands⟩ := hp.move hg (w := ⟨p.place, p.tags⟩) (Walker.shows_of_eq rfl rfl) a
    obtain rfl := hp.graph
    obtain ⟨m₁, hmove, h₁⟩ := h.move hg hp a
    obtain ⟨m', hmoves, h'⟩ := ih h₁ hstands
    refine ⟨m', ?_, h'⟩
    simp only [Manuscript.moves, hmove, hmoves, bind, Except.bind]
    rfl

end Manuscript.Mirrors

/-! ## Opening a manuscript -/

theorem Filed.isSome_lookup {files : List (String × Json)} {ns : List Node} (h : Filed files ns)
    (id : String) : (files.lookup id).isSome = (ns.find? (·.id = id)).isSome := by
  have hrel := h.lookup id
  cases hfile : files.lookup id <;> cases hn : ns.find? (·.id = id) <;> rw [hfile, hn] at hrel <;>
    first | rfl | cases hrel

theorem Node.Seen.targets {j : Json} {n : Node} (h : n.Seen j) :
    Manuscript.targets j = .ok n.targets := by
  obtain ⟨items, hitems, hchoices⟩ := h.choices
  have hchosen : items.mapM (Look.textOf "next") = .ok (n.choices.map (·.next)) :=
    Look.mapM_eq (fun _ _ h => h.next) hchoices
  rw [Manuscript.targets, Node.targets]
  simp only [hitems, hchosen, h.next, bind, Except.bind]
  cases n.next with
  | none => simp [Json.isTruthy, pure, Except.pure]
  | some t => by_cases ht : t = "" <;>
    simp [ht, Json.isTruthy, Look.text, pure, Except.pure, Option.filter]

namespace Manuscript

/-- Nodes are put under their ids, unless one of them has an id that was there before. -/
theorem enter_eq {items : List Json} {ns : List Node}
    (hitems : List.Forall₂ (fun j n => n.Seen j) items ns) {done : List (String × Json)}
    {ds : List Node} (hdone : Filed done ds) {seen : List String}
    (hseen : ∀ id, id ∈ seen ↔ (done.lookup id).isSome = true) :
    match firstDuplicate? seen ns with
    | some id => enter done items = .ok (.error (.duplicate id))
    | none => ∃ files, enter done items = .ok (.ok files) ∧ Filed files (ds ++ ns) := by
  induction hitems generalizing done ds seen with
  | nil => exact ⟨done, rfl, by rwa [List.append_nil]⟩
  | @cons j n items ns hn _ ih =>
    rw [firstDuplicate?, enter]
    simp only [hn.id, bind, Except.bind]
    by_cases hmem : n.id ∈ seen
    · rw [if_pos (by simpa using hmem), if_pos ((hseen n.id).1 hmem)]
      rfl
    · rw [if_neg (by simpa using hmem), if_neg (mt (hseen n.id).2 hmem)]
      have hdone' : Filed (done ++ [(n.id, j)]) (ds ++ [n]) :=
        List.rel_append hdone (.cons ⟨rfl, hn⟩ .nil)
      rw [List.append_cons ds]
      apply ih hdone'
      intro id
      rw [List.mem_cons, hseen id, List.lookup_append, Option.isSome_or, Assoc.lookup_cons]
      by_cases hid : id = n.id <;> simp [hid]

/-- Targets are looked for among the nodes, in the order of the nodes that lead to them. -/
theorem unknownTarget?_eq {g : Graph} {all : List (String × Json)} (hall : Filed all g.nodes)
    {files : List (String × Json)} {ns : List Node} (h : Filed files ns) :
    unknownTarget? all files =
      .ok (ns.findSome? fun n => (n.targets.find? fun t => !g.knows t).map fun t => (n.id, t)) := by
  have hknows : (fun t => decide (t ≠ theEnd ∧ (all.lookup t).isNone = true)) =
      fun t => !g.knows t := by
    funext t
    have hsome : (all.lookup t).isSome = (g.node? t).isSome := hall.isSome_lookup t
    rw [Graph.knows, ← hsome]
    by_cases hend : t = theEnd <;> cases all.lookup t <;> simp [hend]
  induction h with
  | nil => rfl
  | @cons file n files ns hfile _ ih =>
    rw [unknownTarget?, List.findSome?_cons]
    simp only [hfile.2.targets, hfile.2.id, hknows, bind, Except.bind]
    cases n.targets.find? fun t => !g.knows t with
    | none => exact ih
    | some t => rfl

/-- The start is looked for in the story, and else in its first node. -/
theorem startOf_eq {data : Json} {g : Graph} (h : Graph.ofShape? data = some g) :
    startOf data = .ok g.start := by
  obtain ⟨members, items, first, rest, rfl, hnodes, -, hitems, -, hstart⟩ :=
    Graph.members_of_ofShape? h
  obtain ⟨j, hj, hfirst⟩ := Look.item_eq (k := 0) hitems rfl
  rw [startOf, Look.memberOr, Look.member, hnodes]
  rcases hstart with ⟨hnone, hstart⟩ | ⟨hsome, hne⟩
  · rw [hnone, hstart]
    exact (congrArg (· >>= Look.textOf "id") hj).trans (Node.seen_of_ofJson? hfirst).id
  · rw [hsome]
    simp [Json.isTruthy, hne, Look.text, bind, Except.bind]

/-- A story of the right shape is opened without a slip: it is refused for the first fault of its
graph, or it stands where a player of the graph stands at the start. -/
theorem openData_of_shape {data : Json} {g : Graph} (h : Graph.ofShape? data = some g) :
    match g.fault? with
    | some e => openData data = .ok (.error e)
    | none => ∃ m, openData data = .ok (.ok (m, (Player.start g).2)) ∧
        m.Mirrors (Player.start g).1 := by
  obtain ⟨members, items, first, rest, rfl, hnodes, hns, hitems, hid, -⟩ :=
    Graph.members_of_ofShape? h
  rw [← hns] at hitems
  have hseen : List.Forall₂ (fun j n => n.Seen j) items g.nodes :=
    hitems.imp fun _ _ => Node.seen_of_ofJson?
  have hstart := startOf_eq h
  have hempty (id : String) :
      id ∈ ([] : List String) ↔ (([] : List (String × Json)).lookup id).isSome := by simp
  have henter := enter_eq hseen .nil hempty
  rw [Graph.fault?, openData, Look.memberOr, hid, Look.member, hnodes]
  cases hdup : firstDuplicate? [] g.nodes with
  | some id =>
    rw [hdup] at henter
    simp only [Look.text, Look.found, Look.items, henter, bind, Except.bind]
    rfl
  | none =>
    rw [hdup] at henter
    obtain ⟨files, hfiles, hfiled⟩ := henter
    rw [List.nil_append] at hfiled
    have htargets : unknownTarget? files files = .ok g.unknownTarget? :=
      unknownTarget?_eq hfiled hfiled
    have hnode : (files.lookup g.start).isNone = (g.node? g.start).isNone := by
      rw [← Option.not_isSome, hfiled.isSome_lookup g.start, Option.not_isSome]
      rfl
    simp only [Look.text, Look.found, Look.items, hfiles, htargets, hstart, bind, Except.bind]
    cases hunknown : g.unknownTarget? with
    | some t => rfl
    | none =>
      by_cases hmissing : (g.node? g.start).isNone = true
      · simp only [hnode, hmissing, if_true]
        rfl
      · have hsound : g.Sound := by
          apply Graph.Sound.of_fault?
          rw [Graph.fault?, hdup, hunknown]
          exact if_neg hmissing
        obtain ⟨m, hgo, hm⟩ := Mirrors.goTo (m := { id := g.id, nodes := files })
          (p := ⟨g, none, []⟩) hsound ⟨rfl, hfiled, .none, rfl⟩ (.inr hsound.start)
        simp only [hnode, if_neg hmissing, hgo]
        exact ⟨m, rfl, hm⟩

end Manuscript

end VisualNovel.Story
