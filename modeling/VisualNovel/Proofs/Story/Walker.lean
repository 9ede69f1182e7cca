import VisualNovel.Proofs.Story.Chains
/-!
# Walking a story

A walker knows a story by its nodes alone. Where no line is left and nothing is to be chosen, it
walks from node to node without any bound, up to the first one that has lines or choices; it comes
to the end where a node names no other, and `END` is the end even if a node has that id. A walk that
never comes to anything ends the story with a report.

A player of a story that is accepted does what the walker does, move by move
(`stories_are_walked`). When it only reads on, it reads the lines of the nodes that it passes
through, node by node.
-/
namespace VisualNovel.Story

/-- What a reader asks of a story. -/
inductive Move where
  | read
  | choose (index : Int)
  deriving DecidableEq

/-- What a story gives back. -/
inductive Reply where
  | line (text : String)
  | chosen
  | refused (e : PlayError)
  deriving DecidableEq

/-- Where an arrival leaves a reader. -/
def Arrival.place? : Arrival → Option Place
  | .at p => some p
  | .ended | .looped => none

/-- What is reported of an arrival. -/
def Graph.reports (g : Graph) : Arrival → List Log.Entry
  | .looped => [Log.error ("Story '" ++ g.id ++ "' loops through nodes without lines; ending it")]
  | .at _ | .ended => []

/-- What comes of a target: the end, or the walk from the start of a node. -/
inductive Graph.Enters (g : Graph) (t : String) : Arrival → Prop
  | theEnd (ht : t = Story.theEnd) : Enters g t .ended
  | node {m a} (ht : t ≠ Story.theEnd) (hm : m ∈ g.nodes) (hid : m.id = t)
      (ha : g.Arrives ⟨m, 0⟩ a) : Enters g t a

/-! ## The walker -/

/-- A walker: where it is, if the story is not over, and the tags of the last line, if it was read
since the last choice. -/
structure Walker where
  place : Option Place
  tags : List String

namespace Walker

/-- The line that is read next. -/
def unread? (w : Walker) : Option Line := w.place.bind fun p => p.node.lines[p.read]?

/-- The choices on offer: those of the node, once no line of it is left. -/
def offers (w : Walker) : List Branch :=
  match w.unread? with
  | some _ => []
  | none => w.place.elim [] (·.node.choices)

/-- How a walker moves, what it is given and what is reported. -/
inductive Moves (g : Graph) : Walker → Move → Reply × List Log.Entry → Walker → Prop
  | read {p line tags a} (hline : p.node.lines[p.read]? = some line)
      (ha : g.Arrives ⟨p.node, p.read + 1⟩ a) :
      Moves g ⟨some p, tags⟩ .read (.line line.text, g.reports a) ⟨a.place?, line.tags⟩
  | noLine {w : Walker} (h : w.unread? = none) : Moves g w .read (.refused .noLine, []) w
  | choose {w : Walker} {i : Nat} {b a} (hb : w.offers[i]? = some b) (ha : g.Enters b.next a) :
      Moves g w (.choose i) (.chosen, g.reports a) ⟨a.place?, []⟩
  | noChoice {w : Walker} {i : Int} (h : i < 0 ∨ w.offers.length ≤ i) :
      Moves g w (.choose i) (.refused (.noChoice (.int i) w.offers.length), []) w

/-- How a walker makes moves in order. -/
inductive Follows (g : Graph) : Walker → List Move → List (Reply × List Log.Entry) → Walker → Prop
  | rest {w} : Follows g w [] [] w
  | move {w w₁ w' m ms answer answers} (h : Moves g w m answer w₁)
      (hrest : Follows g w₁ ms answers w') : Follows g w (m :: ms) (answer :: answers) w'

/-- How a walker goes through a story from its start: what is reported at first, what it is given
for its moves, and where it comes to. -/
inductive Walked (g : Graph) (ms : List Move) :
    List Log.Entry → List (Reply × List Log.Entry) → Walker → Prop
  | mk {a answers w} (hstart : g.Enters g.start a) (h : Follows g ⟨a.place?, []⟩ ms answers w) :
      Walked g ms (g.reports a) answers w

/-- A walker and a player show the same. -/
structure Shows (w : Walker) (p : Player) : Prop where
  place : p.place = w.place
  tags : p.tags = w.tags
  canContinue : p.canContinue = w.unread?.isSome
  branches : p.branches = w.offers

theorem shows_of_eq {w : Walker} {p : Player} (hplace : p.place = w.place) (htags : p.tags = w.tags) :
    w.Shows p := by
  refine ⟨hplace, htags, ?_, ?_⟩
  · unfold Player.canContinue unread?
    rw [hplace]
    cases w.place with
    | none => rfl
    | some q => by_cases h : q.read < q.node.lines.length <;> simp [Place.hasLine, h]
  · unfold Player.branches offers unread?
    rw [hplace]
    cases w.place with
    | none => rfl
    | some q => by_cases h : q.read < q.node.lines.length <;> simp [Place.hasLine, h]

end Walker

/-! ## The player -/

namespace Player

/-- Makes a move. -/
def move (m : Move) (p : Player) : Player × Reply × List Log.Entry :=
  match m with
  | .read =>
    match p.continue? with
    | .ok (line, q, log) => (q, .line line.text, log)
    | .error e => (p, .refused e, [])
  | .choose i =>
    match p.chooseBy (.int i) with
    | (q, .ok log) => (q, .chosen, log)
    | (q, .error e) => (q, .refused e, [])

/-- Makes moves in order. -/
def moves : List Move → Player → Player × List (Reply × List Log.Entry)
  | [], p => (p, [])
  | m :: ms, p => ((moves ms (p.move m).1).1, (p.move m).2 :: (moves ms (p.move m).1).2)

/-- A player of a graph that is at one of its nodes, where there is something to read or to choose,
or has come to the end. -/
structure Stands (g : Graph) (p : Player) : Prop where
  graph : p.graph = g
  place : ∀ q, p.place = some q → q.node ∈ g.nodes ∧ q.holds = true

theorem settle_eq (p : Player) (a : Arrival) :
    p.settle a = ({ p with place := a.place? }, p.graph.reports a) := by
  cases a <;> rfl

theorem choose?_refused {p : Player} {i : Int} (hi : ¬(0 ≤ i ∧ i < p.branches.length)) :
    p.choose? i = .error (.noChoice (.int i) p.branches.length) := by
  unfold choose?
  split
  · have hnone : p.branches[i.toNat]? = none := by
      rw [List.getElem?_eq_none_iff]
      omega
    rw [hnone]
  · rfl

/-- A choice that is known by its number. -/
theorem chooseBy_int (p : Player) (i : Int) :
    p.chooseBy (.int i) =
      match p.choose? i with
      | .ok (q, log) => (q, .ok log)
      | .error e => (p, .error e) := by
  by_cases hi : 0 ≤ i ∧ i < p.branches.length
  · have hrange : p.inRange (.int i) = true := by simp [inRange, Number.le, Number.lt, hi.1, hi.2]
    simp only [chooseBy, Json.number, hrange, if_true, Json.count]
    cases p.choose? i <;> rfl
  · have hrange : p.inRange (.int i) = false := by
      simp only [inRange, Number.le, Number.lt]
      rw [Bool.and_eq_false_iff, decide_eq_false_iff_not, decide_eq_false_iff_not]
      omega
    simp [chooseBy, Json.number, hrange, choose?_refused hi]

end Player

/-! ## The player and the walker -/

section
variable {g : Graph} {p : Player} {w : Walker}

theorem Graph.Enters.unique (hg : g.Sound) {t : String} {a a' : Arrival} (h : g.Enters t a)
    (h' : g.Enters t a') : a = a' := by
  cases h with
  | theEnd ht =>
    cases h' with
    | theEnd => rfl
    | node ht' => exact absurd ht ht'
  | node ht hm hid ha =>
    cases h' with
    | theEnd ht' => exact absurd ht' ht
    | node _ hm' hid' ha' =>
      obtain rfl := hg.eq_of_id hm hm' (hid.trans hid'.symm)
      exact ha.unique hg ha'

/-- Where a walk through the story leads a player, the player stands. -/
theorem Graph.Arrives.stands {q : Place} {a : Arrival} (h : g.Arrives q a) (hq : q.node ∈ g.nodes)
    (hp : p.graph = g) : Player.Stands g { p with place := a.place? } := by
  refine ⟨hp, ?_⟩
  intro r hr
  cases h with
  | «at» h =>
    cases hr
    exact ⟨h.node_mem hq, h.holds⟩
  | ended => cases hr
  | looped => cases hr

/-- A player enters a target that is there as the walker does. -/
theorem Player.goTo_enters (hg : g.Sound) (hp : p.graph = g) {t : String}
    (ht : t = theEnd ∨ ∃ m ∈ g.nodes, m.id = t) :
    ∃ a, g.Enters t a ∧ p.goTo t = ({ p with place := a.place? }, g.reports a) ∧
      Stands g { p with place := a.place? } := by
  by_cases hend : t = theEnd
  · refine ⟨.ended, .theEnd hend, ?_, hp, nofun⟩
    simp [Player.goTo, hend, settle_eq, hp]
  · obtain ⟨m, hm, rfl⟩ := ht.resolve_left hend
    have harrive := (hg.arrive_iff (p := ⟨m, 0⟩) hm).1 rfl
    have hfind := hg.node?_iff.2 ⟨hm, rfl⟩
    refine ⟨_, .node hend hm rfl harrive, ?_, harrive.stands hm hp⟩
    simp [Player.goTo, hend, hp, hfind, settle_eq]

theorem Walker.Shows.unread? (h : w.Shows p) :
    w.unread? = p.place.bind fun q => q.node.lines[q.read]? := by
  unfold Walker.unread?
  rw [h.place]

theorem Player.Stands.offers_known (hg : g.Sound) (h : Stands g p) {b : Branch}
    (hb : b ∈ p.branches) : b.next = theEnd ∨ ∃ m ∈ g.nodes, m.id = b.next := by
  unfold Player.branches at hb
  cases hplace : p.place with
  | none => simp [hplace] at hb
  | some q =>
    obtain ⟨hmem, -⟩ := h.place q hplace
    refine hg.known q.node hmem b.next ?_
    have hchoice : b ∈ q.node.choices := by
      rw [hplace] at hb
      by_cases hline : q.hasLine = true <;> simp [hline] at hb
      exact hb
    unfold Node.targets
    exact List.mem_append_left _ (List.mem_map.2 ⟨b, hchoice, rfl⟩)

/-- A player reads a line that is left, and goes on to where the walk leads from there. -/
theorem Player.Stands.read (hg : g.Sound) (h : Stands g p) {q : Place} (hq : p.place = some q)
    {line : Line} (hline : q.node.lines[q.read]? = some line) :
    ∃ a, g.Arrives ⟨q.node, q.read + 1⟩ a ∧
      p.move .read =
        ({ p with place := a.place?, tags := line.tags }, .line line.text, g.reports a) ∧
      Stands g { p with place := a.place?, tags := line.tags } := by
  obtain ⟨hmem, -⟩ := h.place q hq
  have harrive := (hg.arrive_iff (p := ⟨q.node, q.read + 1⟩) hmem).1 rfl
  refine ⟨_, harrive, ?_, harrive.stands (p := { p with tags := line.tags }) hmem h.graph⟩
  unfold Player.move Player.continue?
  simp only [hq, Option.bind_some, hline, Option.map_some, settle_eq, h.graph]

/-- A player moves as the walker does. -/
theorem Player.Stands.move (hg : g.Sound) (h : Stands g p) (hw : w.Shows p) (m : Move) :
    ∃ w', w.Moves g m (p.move m).2 w' ∧ w'.Shows (p.move m).1 ∧ Stands g (p.move m).1 := by
  obtain ⟨place, tags⟩ := w
  obtain rfl : p.place = place := hw.place
  obtain rfl : p.tags = tags := hw.tags
  cases m with
  | read =>
    cases hline : (⟨p.place, p.tags⟩ : Walker).unread? with
    | none =>
      have hrefused : p.move .read = (p, .refused .noLine, []) := by
        unfold Walker.unread? at hline
        unfold Player.move Player.continue?
        cases hplace : p.place with
        | none => rfl
        | some q =>
          rw [hplace, Option.bind_some] at hline
          simp only [Option.bind_some, hline, Option.map_none]
      rw [hrefused]
      exact ⟨_, .noLine hline, hw, h⟩
    | some line =>
      obtain ⟨q, hq, hline⟩ := Option.bind_eq_some_iff.1 hline
      obtain ⟨a, harrive, hmove, hstands⟩ := h.read hg hq hline
      rw [hmove, show p.place = some q from hq]
      exact ⟨_, .read hline harrive, Walker.shows_of_eq rfl rfl, hstands⟩
  | choose i =>
    unfold Player.move
    simp only [Player.chooseBy_int]
    have hbranches := hw.branches
    by_cases hi : 0 ≤ i ∧ i < p.branches.length
    · obtain ⟨n, rfl⟩ := Int.eq_ofNat_of_zero_le hi.1
      have hlt : n < p.branches.length := by omega
      obtain ⟨b, hb⟩ : ∃ b, p.branches[n]? = some b := ⟨_, List.getElem?_eq_getElem hlt⟩
      have hknown := h.offers_known hg (List.mem_of_getElem? hb)
      obtain ⟨a, henters, hgo, hstands⟩ :=
        Player.goTo_enters (p := { p with tags := [] }) hg h.graph hknown
      have hchoose : p.choose? n = .ok ({ p with place := a.place?, tags := [] }, g.reports a) := by
        simp [Player.choose?, hb, hgo]
      rw [hchoose]
      rw [hbranches] at hb
      exact ⟨_, .choose hb henters, Walker.shows_of_eq rfl rfl, hstands⟩
    · rw [Player.choose?_refused hi, hbranches]
      refine ⟨_, .noChoice ?_, hw, h⟩
      rw [← hbranches]
      omega

theorem Walker.Moves.unique (hg : g.Sound) {m : Move} {answer answer' : Reply × List Log.Entry}
    {w' w'' : Walker} (h : w.Moves g m answer w') (h' : w.Moves g m answer' w'') :
    answer = answer' ∧ w' = w'' := by
  cases h with
  | read hline ha =>
    cases h' with
    | read hline' ha' =>
      obtain rfl := ha.unique hg ha'
      cases hline.symm.trans hline'
      exact ⟨rfl, rfl⟩
    | noLine hnone => exact absurd (hline.symm.trans hnone) nofun
  | noLine hnone =>
    cases h' with
    | read hline' => exact absurd (hline'.symm.trans hnone) nofun
    | noLine => exact ⟨rfl, rfl⟩
  | choose hb ha =>
    cases h' with
    | choose hb' ha' =>
      cases hb.symm.trans hb'
      obtain rfl := ha.unique hg ha'
      exact ⟨rfl, rfl⟩
    | noChoice hout =>
      have hlt := (List.getElem?_eq_some_iff.1 hb).1
      omega
  | noChoice hout =>
    generalize hm : Move.choose _ = m at h'
    cases h' with
    | read => cases hm
    | noLine => cases hm
    | choose hb' =>
      cases hm
      have hlt := (List.getElem?_eq_some_iff.1 hb').1
      omega
    | noChoice =>
      cases hm
      exact ⟨rfl, rfl⟩

theorem Walker.Follows.unique (hg : g.Sound) {ms : List Move}
    {answers answers' : List (Reply × List Log.Entry)} {w' w'' : Walker}
    (h : w.Follows g ms answers w') (h' : w.Follows g ms answers' w'') :
    answers = answers' ∧ w' = w'' := by
  induction h generalizing answers' with
  | rest =>
    cases h'
    exact ⟨rfl, rfl⟩
  | move hmove _ ih =>
    cases h' with
    | move hmove' hrest' =>
      obtain ⟨rfl, rfl⟩ := hmove.unique hg hmove'
      obtain ⟨rfl, rfl⟩ := ih hrest'
      exact ⟨rfl, rfl⟩

/-- A player makes moves in order as the walker does. -/
theorem Player.Stands.moves (hg : g.Sound) (h : Stands g p) (hw : w.Shows p) (ms : List Move) :
    ∃ w', w.Follows g ms (p.moves ms).2 w' ∧ w'.Shows (p.moves ms).1 ∧
      Stands g (p.moves ms).1 := by
  induction ms generalizing p w with
  | nil => exact ⟨w, .rest, hw, h⟩
  | cons m ms ih =>
    obtain ⟨w₁, hmove, hw₁, h₁⟩ := h.move hg hw m
    obtain ⟨w', hrest, hw', h'⟩ := ih h₁ hw₁
    exact ⟨w', .move hmove hrest, hw', h'⟩

/-- A player begins where the walker does. -/
theorem Player.start_enters (hg : g.Sound) :
    ∃ a, g.Enters g.start a ∧ (start g).2 = g.reports a ∧
      (⟨a.place?, []⟩ : Walker).Shows (start g).1 ∧ Stands g (start g).1 := by
  obtain ⟨a, henters, hgo, hstands⟩ :=
    Player.goTo_enters (p := ⟨g, none, []⟩) hg rfl (.inr hg.start)
  refine ⟨a, henters, ?_, ?_, ?_⟩
  · unfold Player.start
    rw [hgo]
  · unfold Player.start
    rw [hgo]
    exact Walker.shows_of_eq rfl rfl
  · unfold Player.start
    rw [hgo]
    exact hstands

end

/-! ## Reading on -/

/-- The nodes that a reader comes through behind a node, one by one, who only reads on. -/
inductive Graph.Passes (g : Graph) : Node → List Node → Prop
  | nil {n} : Passes g n []
  | cons {n m ms} (hchoices : n.choices = []) (hlink : g.Links n m) (h : Passes g m ms) :
      Passes g n (m :: ms)

/-- The lines from a place on: those left of its node, and all lines of the nodes behind it. -/
def Place.linesOn (q : Place) (ms : List Node) : List Line :=
  q.node.lines.drop q.read ++ ms.flatMap (·.lines)

/-- A chain leads to the next line, if there is one on the way. -/
theorem Graph.Passes.walks {g : Graph} {q : Place} {ms : List Node} (h : g.Passes q.node ms)
    (hne : q.linesOn ms ≠ []) :
    ∃ k r ns, g.Walks k q (some r) ∧ g.Passes r.node ns ∧ r.linesOn ns = q.linesOn ms ∧
      r.hasLine = true := by
  induction ms generalizing q with
  | nil =>
    have hline : q.hasLine = true := by simpa [Place.linesOn, Place.hasLine] using hne
    exact ⟨0, q, [], .stays (by simp [Place.holds, hline]), h, rfl, hline⟩
  | cons m ms ih =>
    by_cases hline : q.hasLine = true
    · exact ⟨0, q, m :: ms, .stays (by simp [Place.holds, hline]), h, rfl, hline⟩
    · cases h with
      | cons hchoices hlink hpasses =>
        have hdone : q.node.lines.drop q.read = [] := by
          simpa [Place.hasLine] using hline
        have hlines : (⟨m, 0⟩ : Place).linesOn ms = q.linesOn (m :: ms) := by
          simp [Place.linesOn, hdone]
        obtain ⟨k, r, ns, hwalk, hpasses', hlines', hline'⟩ :=
          ih (q := ⟨m, 0⟩) hpasses (by rw [hlines]; exact hne)
        refine ⟨k + 1, r, ns, .goes ?_ hlink hwalk, hpasses', hlines'.trans hlines, hline'⟩
        simp [Place.holds, hline, hchoices]

/-- A player who reads on reads the lines of the nodes in order. -/
theorem Player.Stands.reads_on {g : Graph} (hg : g.Sound) {p : Player} (h : Stands g p) {q : Place}
    (hq : p.place = some q) {ms : List Node} (hms : g.Passes q.node ms) {n : Nat}
    (hn : n ≤ (q.linesOn ms).length) :
    (p.moves (List.replicate n .read)).2.map (·.1) =
        ((q.linesOn ms).take n).map (fun line => .line line.text) ∧
      (p.moves (List.replicate n .read)).1.tags =
        ((q.linesOn ms).take n).getLast?.elim p.tags (·.tags) := by
  induction n generalizing p q ms with
  | zero => exact ⟨rfl, rfl⟩
  | succ n ih =>
    have hne : q.linesOn ms ≠ [] := by
      intro hnil
      rw [hnil] at hn
      exact absurd hn (Nat.not_succ_le_zero n)
    -- Where a player stands there is something to read or to choose, so the next line is here.
    obtain ⟨k, r, ns, hwalk, -, -, hhere⟩ := hms.walks hne
    obtain ⟨-, hr⟩ := hwalk.unique hg (.stays (h.place q hq).2)
    cases hr
    have hlt : q.read < q.node.lines.length := by simpa [Place.hasLine] using hhere
    have hlines : q.linesOn ms =
        q.node.lines[q.read] :: (⟨q.node, q.read + 1⟩ : Place).linesOn ms := by
      unfold Place.linesOn
      rw [List.drop_eq_getElem_cons hlt]
      rfl
    obtain ⟨a, harrive, hmove, hstands⟩ := h.read hg hq (List.getElem?_eq_getElem hlt)
    rw [hlines, List.length_cons, Nat.succ_le_succ_iff] at hn
    rw [hlines, List.replicate_succ, List.take_succ_cons]
    simp only [Player.moves, hmove, List.map_cons]
    by_cases hrest : (⟨q.node, q.read + 1⟩ : Place).linesOn ms = []
    · obtain rfl : n = 0 := by
        rw [hrest] at hn
        exact Nat.le_zero.1 hn
      exact ⟨rfl, rfl⟩
    · obtain ⟨k', r, ns, hwalk', hpasses, hlines', -⟩ := Graph.Passes.walks (q := ⟨q.node, q.read + 1⟩) hms hrest
      obtain rfl := harrive.unique hg (.at hwalk')
      obtain ⟨htexts, htags⟩ := ih hstands rfl hpasses (by rw [hlines']; exact hn)
      rw [hlines'] at htexts htags
      refine ⟨by rw [htexts], ?_⟩
      rw [htags, List.getLast?_cons]
      cases ((⟨q.node, q.read + 1⟩ : Place).linesOn ms |>.take n).getLast? <;> rfl

/-! ## Stories are walked -/

/-- A player of a story, from its start, after some moves. -/
def Graph.playedBy (g : Graph) (ms : List Move) : Player := ((Player.start g).1.moves ms).1

/-- What a story gives back for moves, from its start. -/
def Graph.repliesTo (g : Graph) (ms : List Move) : List (Reply × List Log.Entry) :=
  ((Player.start g).1.moves ms).2

/-- **Stories are walked.** A story that is accepted is played as it is walked without any bound: for
all moves, the walker comes through the story in one way, and the player is given the same, reports
the same and stands where the walker stands. A player who reads on reads the lines of the nodes in
order, each once whenever the node is passed through, and has the tags of the last of them. A chain
is given up exactly if its walk leads nowhere. -/
theorem stories_are_walked {content : Json} {g : Graph} (hg : Graph.ofContent content = .ok g) :
    (∀ ms log answers w, Walker.Walked g ms log answers w ↔
      log = (Player.start g).2 ∧ answers = g.repliesTo ms ∧ w.Shows (g.playedBy ms)) ∧
    (∀ ms q ns n, (g.playedBy ms).place = some q → g.Passes q.node ns →
      n ≤ (q.linesOn ns).length →
      ((g.playedBy ms).moves (List.replicate n .read)).2.map (·.1) =
          ((q.linesOn ns).take n).map (fun line => .line line.text) ∧
        ((g.playedBy ms).moves (List.replicate n .read)).1.tags =
          ((q.linesOn ns).take n).getLast?.elim (g.playedBy ms).tags (·.tags)) ∧
    ∀ p : Place, p.node ∈ g.nodes → (g.arrive p = .looped ↔ ∀ k a, ¬g.Walks k p a) := by
  have hsound := Graph.Sound.of_content hg
  obtain ⟨a, henters, hlog, hshows, hstands⟩ := Player.start_enters hsound
  refine ⟨?_, ?_, ?_⟩
  · intro ms log answers w
    obtain ⟨w', hfollows, hshows', -⟩ := hstands.moves hsound hshows ms
    constructor
    · rintro ⟨henters', hfollows'⟩
      obtain rfl := henters.unique hsound henters'
      obtain ⟨hanswers, rfl⟩ := hfollows.unique hsound hfollows'
      exact ⟨hlog.symm, hanswers.symm, hshows'⟩
    · rintro ⟨rfl, rfl, hw⟩
      have hsame : w = w' := by
        obtain ⟨place, tags⟩ := w
        obtain ⟨place', tags'⟩ := w'
        cases hw.place.symm.trans hshows'.place
        cases hw.tags.symm.trans hshows'.tags
        rfl
      rw [hlog, hsame]
      exact .mk henters hfollows
  · intro ms q ns n hq hns hn
    obtain ⟨-, -, -, hstands'⟩ := hstands.moves hsound hshows ms
    exact hstands'.reads_on hsound hq hns hn
  · intro p hp
    constructor
    · intro hlooped k b hwalk
      cases (hsound.arrive_iff hp).1 hlooped with
      | looped hnone => exact hnone k b hwalk
    · intro hnone
      exact (hsound.arrive_iff hp).2 (.looped hnone)

/-- A line is read, and then again: the chain goes through all the nodes there are, back to the one
whose only line was read. There is nothing to choose on the way. -/
theorem round_trip_is_walked :
    let hall : Node := { id := "hall", lines := [⟨"Hi!", ["char:host"]⟩], next := some "gap" }
    let gap : Node := { id := "gap", next := some "hall" }
    let content : Json := .obj [("nodes", .arr [
      .obj [("id", .str "hall"), ("next", .str "gap"), ("lines", .arr [
        .obj [("text", .str "Hi!"), ("tags", .arr [.str "char:host"])]])],
      .obj [("id", .str "gap"), ("next", .str "hall")]])]
    let g : Graph := ⟨"story", "hall", [hall, gap]⟩
    Graph.ofContent content = .ok g ∧
      Walker.Walked g [.read, .choose 0, .read] []
        [(.line "Hi!", []), (.refused (.noChoice (.int 0) 0), []), (.line "Hi!", [])]
        ⟨some ⟨hall, 0⟩, ["char:host"]⟩ ∧
      ((g.playedBy []).moves (List.replicate 2 .read)).2.map (·.1) = [.line "Hi!", .line "Hi!"] ∧
      ∃ k a, g.Walks k ⟨hall, 1⟩ a := by
  intro hall gap content g
  have hg : Graph.ofContent content = .ok g := by decide +kernel
  obtain ⟨hwalked, hreads, hloops⟩ := stories_are_walked hg
  have hpasses : g.Passes hall [gap, hall] := by
    refine .cons rfl ⟨by simp [g], rfl, by decide, by decide⟩ (.cons rfl ?_ .nil)
    exact ⟨by simp [g], rfl, by decide, by decide⟩
  refine ⟨hg, ?_, ?_, ?_⟩
  · exact (hwalked _ _ _ _).2
      ⟨by decide +kernel, by decide +kernel, Walker.shows_of_eq (by decide +kernel) (by decide +kernel)⟩
  · exact (hreads [] ⟨hall, 0⟩ [gap, hall] 2 (by decide +kernel) hpasses (by decide)).1
  · by_contra hnone
    have hlooped := (hloops ⟨hall, 1⟩ (by simp [g])).2 (by simpa using hnone)
    revert hlooped
    decide +kernel

end VisualNovel.Story
