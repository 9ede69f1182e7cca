import VisualNovel.Proofs.Story.Chains
import VisualNovel.Proofs.Story.LineForms
import VisualNovel.Story.Script
/-!
# Printing a script

Nodes are printed line by line: a header, the tags of each line and the line, the choices, and where
the node goes on (`Node.printed`). Each of these lines is read as what it was printed for
(`Node.ofLine_printed`), provided that nothing in the nodes reads as something else
(`Node.Printable`). What the lines of a node say adds that node to a draft (`Draft.Takes.node`), and
so compiling what was printed gives back the nodes (`printed_scripts_are_read_back`).
-/
namespace VisualNovel.Story

/-! ## What can be printed -/

/-- A text that fills a line: there is something in it, without blanks at its ends. -/
structure FillsLine (s : String) : Prop where
  ne : s ≠ ""
  trimmed : Text.trimString s = s
  unbroken : '\n' ∉ s.toList

/-- A tag that can stand on a line of its own. -/
structure IsTag (s : String) : Prop extends FillsLine s where
  plain : '#' ∉ s.toList

/-- A line that reads as nothing but a line of dialogue. -/
structure Line.Printable (l : Line) : Prop extends FillsLine l.text where
  plain : '#' ∉ l.text.toList
  noComment : ['/', '/'].isPrefixOf l.text.toList = false
  noHeader : Statement.header? l.text.toList = none
  noChoice : Statement.choice? l.text.toList = none
  noDivert : Statement.divert? l.text.toList = none
  tags : ∀ t ∈ l.tags, IsTag t

/-- A choice may hold anything that fills a line. -/
structure Branch.Printable (b : Branch) : Prop where
  text : FillsLine b.text
  next : Text.IsName b.next.toList

/-- A node that can be printed. -/
structure Node.Printable (n : Node) : Prop where
  id : Text.IsName n.id.toList
  lines : ∀ l ∈ n.lines, l.Printable
  choices : ∀ b ∈ n.choices, b.Printable
  next : ∀ t ∈ n.next, Text.IsName t.toList

/-! ## Printing -/

/-- A line with its tags in front of it, each on a line of its own. -/
def Line.printed (l : Line) : List String := l.tags.map ("# " ++ ·) ++ [l.text]

/-- A choice on a line. -/
def Branch.printed (b : Branch) : String := "* " ++ b.text ++ " -> " ++ b.next

/-- A node line by line. -/
def Node.printed (n : Node) : List String :=
  ("=== " ++ n.id) :: (n.lines.flatMap Line.printed ++ n.choices.map Branch.printed ++
    (n.next.map ("-> " ++ ·)).toList)

/-- A script with some nodes, one after the other. -/
def printScript (ns : List Node) : String := "\n".intercalate (ns.flatMap Node.printed)

/-! ## Reading a line -/

namespace Statement
open Text

theorem blank_space : Blank [' '] := List.forall_mem_singleton.2 (by decide)

theorem divert?_of_name {name : List Char} (h : IsName name) :
    divert? ('-' :: '>' :: ' ' :: name) = some (.ofList name) :=
  divert?_eq_some_iff.2 ⟨[' '], name, [], blank_space, h, List.forall_mem_nil _, rfl, by simp⟩

theorem header?_of_name {name : List Char} (h : IsName name) :
    header? ('=' :: '=' :: '=' :: ' ' :: name) = some (.ofList name) :=
  IsHeader.header? ⟨['=', '=', '='], [' '], name, [], [], [], by decide, by simp, blank_space, h,
    List.forall_mem_nil _, List.forall_mem_nil _, List.forall_mem_nil _, rfl, by simp⟩

theorem choice?_of_name {text name : List Char} (ht : Trimmed text) (hne : text ≠ [])
    (h : IsName name) :
    choice? ('*' :: ' ' :: (text ++ ' ' :: '-' :: '>' :: ' ' :: name)) =
      some (.ofList text, .ofList name) := by
  have hpoints : PointsTo ('*' :: ' ' :: (text ++ ' ' :: '-' :: '>' :: ' ' :: name))
      ('*' :: ' ' :: (text ++ [' '])) (.ofList name) :=
    ⟨[' '], name, [], blank_space, h, List.forall_mem_nil _, rfl, by simp⟩
  have htrim : trim (' ' :: (text ++ [' '])) = text :=
    trim_between ht hne (by decide) (by decide)
  rw [choice?_of_pointsTo hpoints, choiceText?_of_trim (by rwa [htrim]), htrim]
  rfl

theorem splitTags_of_tag {t : List Char} (ht : Trimmed t) (hne : t ≠ []) (hplain : '#' ∉ t) :
    splitTags ('#' :: ' ' :: t) = [.ofList t] := by
  have hpieces : splitAt '#' ('#' :: ' ' :: t) = [[], ' ' :: t] := by
    have hplain' : '#' ∉ ' ' :: t := by simp [hplain]
    rw [splitAt, if_pos rfl, splitAt_of_not_mem hplain']
  have htrim : trim (' ' :: t) = t := by
    rw [trim, trimStart_cons (by decide), ← trim, trim_eq_self_iff.2 ht]
  simp [splitTags, hpieces, htrim, hne, show trim [] = [] from rfl]

theorem ofLine_of_trimmed {s : List Char} (h : Trimmed s) : ofLine s = ofTrimmed s := by
  rw [ofLine, trim_eq_self_iff.2 h]

/-! ## Reading what was printed -/

theorem ofLine_header {id : String} (h : IsName id.toList) :
    ofLine ("=== " ++ id).toList = .node id := by
  have hchars : ("=== " ++ id).toList = '=' :: ('=' :: '=' :: [' '] ++ id.toList) := by simp
  rw [hchars, ofLine_of_trimmed (.between (by decide) _ h.trimmed h.ne)]
  simp [ofTrimmed, header?_of_name h]

theorem ofLine_divert {t : String} (h : IsName t.toList) :
    ofLine ("-> " ++ t).toList = .divert t := by
  have hchars : ("-> " ++ t).toList = '-' :: ('>' :: [' '] ++ t.toList) := by simp
  rw [hchars, ofLine_of_trimmed (.between (by decide) _ h.trimmed h.ne)]
  simp [ofTrimmed, header?, choice?, divert?_of_name h]

end Statement

theorem FillsLine.trimmed_toList {s : String} (h : FillsLine s) : Text.Trimmed s.toList := by
  have htrim := congrArg String.toList h.trimmed
  rw [Text.trimString, String.toList_ofList] at htrim
  exact Text.trim_eq_self_iff.1 htrim

theorem FillsLine.toList_ne {s : String} (h : FillsLine s) : s.toList ≠ [] := by
  simpa using h.ne

namespace Statement

theorem ofLine_tag {t : String} (h : IsTag t) : ofLine ("# " ++ t).toList = .tags [t] := by
  have hchars : ("# " ++ t).toList = '#' :: ([' '] ++ t.toList) := by simp
  have htags : splitTags ('#' :: ' ' :: t.toList) = [t] := by
    rw [splitTags_of_tag h.trimmed_toList h.toList_ne h.plain, String.ofList_toList]
  rw [hchars, ofLine_of_trimmed (.between (by decide) _ h.trimmed_toList h.toList_ne)]
  simp [ofTrimmed, header?, htags]

theorem ofLine_choice {b : Branch} (h : b.Printable) :
    ofLine b.printed.toList = .choice b.text b.next := by
  have hchars : b.printed.toList =
      '*' :: (' ' :: b.text.toList ++ ' ' :: '-' :: '>' :: [' '] ++ b.next.toList) := by
    simp [Branch.printed]
  have hchoice := choice?_of_name h.text.trimmed_toList h.text.toList_ne h.next
  rw [hchars, ofLine_of_trimmed (.between (by decide) _ h.next.trimmed h.next.ne)]
  simp [ofTrimmed, header?, hchoice]

/-- A line that reads as nothing else is a line of dialogue. -/
theorem ofLine_dialogue {l : Line} (h : l.Printable) :
    ofLine l.text.toList = .dialogue l.text [] := by
  have hplain : ∀ c ∈ l.text.toList, (decide (c ≠ '#')) = true := by
    intro c hc
    rw [decide_eq_true_eq]
    rintro rfl
    exact h.plain hc
  have htag : l.text.toList.head? ≠ some '#' := by
    intro hhead
    exact h.plain (List.mem_of_mem_head? hhead)
  have htake : l.text.toList.takeWhile (· ≠ '#') = l.text.toList :=
    List.takeWhile_eq_self_iff.2 hplain
  have hdrop : l.text.toList.dropWhile (· ≠ '#') = [] := List.dropWhile_eq_nil_iff.2 hplain
  rw [ofLine_of_trimmed h.trimmed_toList, ofTrimmed, if_neg (by simp [h.toList_ne, h.noComment]),
    h.noHeader, h.noChoice, h.noDivert]
  simp only [if_neg htag, htake, hdrop]
  rw [Text.trim_eq_self_iff.2 h.trimmed_toList, String.ofList_toList]
  rfl

end Statement

/-- What the printed lines of a line say. -/
def Line.statements (l : Line) : List Statement :=
  l.tags.map (fun t => .tags [t]) ++ [.dialogue l.text []]

/-- What the printed lines of a node say. -/
def Node.statements (n : Node) : List Statement :=
  .node n.id :: (n.lines.flatMap Line.statements ++
    n.choices.map (fun b => .choice b.text b.next) ++ (n.next.map .divert).toList)

theorem Line.ofLine_printed {l : Line} (h : l.Printable) :
    l.printed.map (fun s => Statement.ofLine s.toList) = l.statements := by
  have htags : (l.tags.map ("# " ++ ·)).map (fun s => Statement.ofLine s.toList) =
      l.tags.map fun t => .tags [t] := by
    rw [List.map_map]
    exact List.map_congr_left fun t ht => Statement.ofLine_tag (h.tags t ht)
  rw [Line.printed, List.map_append, htags, Line.statements, ← Statement.ofLine_dialogue h]
  rfl

/-- Every line that is printed of a node is read as what it was printed for. -/
theorem Node.ofLine_printed {n : Node} (h : n.Printable) :
    n.printed.map (fun s => Statement.ofLine s.toList) = n.statements := by
  have hlines : (n.lines.flatMap Line.printed).map (fun s => Statement.ofLine s.toList) =
      n.lines.flatMap Line.statements := by
    rw [List.map_flatMap]
    exact List.flatMap_congr fun l hl => Line.ofLine_printed (h.lines l hl)
  have hchoices : (n.choices.map Branch.printed).map (fun s => Statement.ofLine s.toList) =
      n.choices.map fun b => .choice b.text b.next := by
    rw [List.map_map]
    exact List.map_congr_left fun b hb => Statement.ofLine_choice (h.choices b hb)
  have hnext : (n.next.map ("-> " ++ ·)).toList.map (fun s => Statement.ofLine s.toList) =
      (n.next.map .divert).toList := by
    cases hn : n.next with
    | none => rfl
    | some t => exact congrArg (fun s => [s]) (Statement.ofLine_divert (h.next t hn))
  rw [Node.printed, List.map_cons, List.map_append, List.map_append, hlines, hchoices, hnext,
    Statement.ofLine_header h.id, Node.statements]

/-! ## Taking in a node -/

/-- A draft takes in statements without a fault, wherever they stand. -/
inductive Draft.Takes : Draft → List Statement → Draft → Prop
  | nil {d} : Takes d [] d
  | cons {d d' d'' s ss} (h : ∀ line, d.add line s = .ok d') (hs : Takes d' ss d'') :
      Takes d (s :: ss) d''

namespace Draft.Takes
variable {d d' d'' : Draft} {s : Statement} {ss ts : List Statement}

theorem addAll (h : d.Takes ss d') (line : Nat) : d.addAll line ss = (d', none) := by
  induction h generalizing line with
  | nil => rfl
  | cons h _ ih =>
    rw [Draft.addAll, h line]
    exact ih (line + 1)

theorem one (h : ∀ line, d.add line s = .ok d') : d.Takes [s] d' := cons h nil

theorem append (hs : d.Takes ss d') (ht : d'.Takes ts d'') : d.Takes (ss ++ ts) d'' := by
  induction hs with
  | nil => exact ht
  | cons h _ ih => exact cons h (ih ht)

variable {closed : List Node} {n : Node} {waiting : List String} {dropped : List Dangling}

theorem tags (ts : List String) :
    Takes ⟨closed, some n, waiting, dropped⟩ (ts.map fun t => .tags [t])
      ⟨closed, some n, waiting ++ ts, dropped⟩ := by
  induction ts generalizing waiting with
  | nil => simpa using nil
  | cons t ts ih =>
    rw [List.append_cons waiting t ts]
    exact cons (fun _ => rfl) ih

/-- The tags of a line wait for it. -/
theorem line (hn : n.choices = []) (l : Line) :
    Takes ⟨closed, some n, [], dropped⟩ l.statements
      ⟨closed, some { n with lines := n.lines ++ [l] }, [], dropped⟩ := by
  refine (tags l.tags).append (one fun line => ?_)
  simp [add, Draft.node, hn]

theorem lines (hn : n.choices = []) (ls : List Line) :
    Takes ⟨closed, some n, [], dropped⟩ (ls.flatMap Line.statements)
      ⟨closed, some { n with lines := n.lines ++ ls }, [], dropped⟩ := by
  induction ls generalizing n with
  | nil => simpa using nil
  | cons l ls ih =>
    rw [List.flatMap_cons, List.append_cons n.lines l ls]
    exact (line hn l).append (ih hn)

theorem choices (bs : List Branch) :
    Takes ⟨closed, some n, waiting, dropped⟩ (bs.map fun b => .choice b.text b.next)
      ⟨closed, some { n with choices := n.choices ++ bs }, waiting, dropped⟩ := by
  induction bs generalizing n with
  | nil => simpa using nil
  | cons b bs ih =>
    rw [List.append_cons n.choices b bs]
    exact cons (fun _ => rfl) ih

theorem next (hn : n.next = none) (t? : Option String) :
    Takes ⟨closed, some n, waiting, dropped⟩ (t?.map .divert).toList
      ⟨closed, some { n with next := t? }, waiting, dropped⟩ := by
  cases t? with
  | none =>
    obtain ⟨id, lines, choices, next⟩ := n
    obtain rfl : next = none := hn
    exact nil
  | some t => exact one fun line => by simp [add, Draft.node, hn]

/-- What is printed of a node adds that node, behind those that are there already. -/
theorem node (hwaiting : d.waiting = []) (n : Node) :
    d.Takes n.statements ⟨d.nodes, some n, [], d.dropped⟩ := by
  have hheader (line : Nat) : d.add line (.node n.id) =
      .ok ⟨d.nodes, some { id := n.id }, [], d.dropped⟩ := by
    have hnone : d.dangling = [] := by
      cases hcurrent : d.current <;> simp [dangling, hcurrent, hwaiting]
    simp [add, close, hnone]
  exact cons hheader (((lines rfl n.lines).append (choices n.choices)).append (next rfl n.next))

theorem nodes (hwaiting : d.waiting = []) (ns : List Node) :
    ∃ d', d.Takes (ns.flatMap Node.statements) d' ∧ d'.nodes = d.nodes ++ ns ∧ d'.waiting = [] ∧
      d'.dropped = d.dropped := by
  induction ns generalizing d with
  | nil => exact ⟨d, nil, (List.append_nil _).symm, hwaiting, rfl⟩
  | cons n ns ih =>
    obtain ⟨d', htakes, hnodes, hnone, hdropped⟩ :=
      ih (d := ⟨d.nodes, some n, [], d.dropped⟩) rfl
    refine ⟨d', (node hwaiting n).append htakes, ?_, hnone, hdropped⟩
    rw [hnodes, List.append_cons d.nodes n ns]
    rfl

end Draft.Takes

/-! ## Compiling what was printed -/

theorem Line.unbroken {l : Line} (h : l.Printable) : ∀ s ∈ l.printed, '\n' ∉ s.toList := by
  intro s hs
  rcases List.mem_append.1 hs with hs | hs
  · obtain ⟨t, ht, rfl⟩ := List.mem_map.1 hs
    simpa using (h.tags t ht).unbroken
  · obtain rfl := List.mem_singleton.1 hs
    exact h.unbroken

/-- No line that is printed of a node is broken. -/
theorem Node.unbroken {n : Node} (h : n.Printable) : ∀ s ∈ n.printed, '\n' ∉ s.toList := by
  intro s hs
  simp only [Node.printed, List.mem_cons, List.mem_append, List.mem_flatMap, List.mem_map,
    Option.mem_toList, Option.map_eq_some_iff] at hs
  rcases hs with rfl | (⟨l, hl, hs⟩ | ⟨b, hb, rfl⟩) | ⟨t, ht, rfl⟩
  · simpa using h.id.unbroken
  · exact Line.unbroken (h.lines l hl) s hs
  · simpa [Branch.printed] using ⟨(h.choices b hb).text.unbroken, (h.choices b hb).next.unbroken⟩
  · simpa using (h.next t ht).unbroken

/-- A script that was printed says what its nodes say. -/
theorem statements_printScript {ns : List Node} (h : ∀ n ∈ ns, n.Printable) (hne : ns ≠ []) :
    statements (printScript ns) = ns.flatMap Node.statements ∧
      statements (printScript ns ++ "\n") = ns.flatMap Node.statements ++ [.nothing] := by
  have hlines : (ns.flatMap Node.printed).map String.toList ≠ [] := by
    cases ns with
    | nil => exact absurd rfl hne
    | cons n ns => simp [Node.printed]
  have hunbroken : ∀ line ∈ (ns.flatMap Node.printed).map String.toList, '\n' ∉ line := by
    intro line hline
    obtain ⟨s, hs, rfl⟩ := List.mem_map.1 hline
    obtain ⟨n, hn, hs⟩ := List.mem_flatMap.1 hs
    exact Node.unbroken (h n hn) s hs
  have hsplit : Text.splitAt '\n' (printScript ns).toList =
      (ns.flatMap Node.printed).map String.toList := by
    rw [printScript, String.toList_intercalate]
    exact Text.splitAt_intercalate hlines hunbroken
  have hread : ((ns.flatMap Node.printed).map String.toList).map Statement.ofLine =
      ns.flatMap Node.statements := by
    rw [List.map_map, List.map_flatMap]
    exact List.flatMap_congr fun n hn => Node.ofLine_printed (h n hn)
  constructor
  · rw [statements, hsplit, hread]
  · rw [statements, String.toList_append, show "\n".toList = '\n' :: [] from rfl,
      Text.splitAt_append, hsplit, List.map_append, hread]
    rfl

theorem firstDuplicate?_of_nodup {seen : List String} {ns : List Node}
    (hnodup : (ns.map (·.id)).Nodup) (hfresh : ∀ n ∈ ns, n.id ∉ seen) :
    firstDuplicate? seen ns = none := by
  induction ns generalizing seen with
  | nil => rfl
  | cons n ns ih =>
    rw [List.map_cons, List.nodup_cons] at hnodup
    rw [firstDuplicate?, if_neg (by simpa using hfresh n List.mem_cons_self)]
    apply ih hnodup.2
    intro m hm hmem
    rcases List.mem_cons.1 hmem with hid | hseen
    · exact hnodup.1 (hid ▸ List.mem_map_of_mem hm)
    · exact hfresh m (List.mem_cons_of_mem _ hm) hseen

/-- What a script is compiled into whose lines are taken in. -/
theorem compile_of_takes {text : String} {d : Draft} (h : Draft.Takes {} (statements text) d)
    (hwaiting : d.waiting = []) (hdropped : d.dropped = [])
    (hdistinct : (d.nodes.map (·.id)).Nodup) :
    compile text = ⟨.ok (.ofNodes "compiled" d.nodes), []⟩ := by
  have hnodes : d.close.nodes = d.nodes := by simp [Draft.close, Draft.nodes]
  have hnone : d.close.dropped = [] := by
    cases hcurrent : d.current <;> simp [Draft.close, Draft.dangling, hcurrent, hwaiting, hdropped]
  have hunique : firstDuplicate? [] d.nodes = none := firstDuplicate?_of_nodup hdistinct (by simp)
  rw [compile, h.addAll 1]
  simp only [hnodes, hunique, hnone]

/-- **Printed scripts are read back.** To compile what was printed of some nodes gives back these
nodes, and the story starts with the first of them. No tag is dropped. It makes no difference
whether the last line is ended. -/
theorem printed_scripts_are_read_back {first : Node} {rest : List Node}
    (hprintable : ∀ n ∈ first :: rest, n.Printable)
    (hdistinct : ((first :: rest).map (·.id)).Nodup) :
    compile (printScript (first :: rest)) =
        ⟨.ok ⟨"compiled", first.id, first :: rest⟩, []⟩ ∧
      compile (printScript (first :: rest) ++ "\n") =
        ⟨.ok ⟨"compiled", first.id, first :: rest⟩, []⟩ := by
  obtain ⟨hstatements, hended⟩ := statements_printScript hprintable (List.cons_ne_nil _ _)
  obtain ⟨d, htakes, hnodes, hwaiting, hdropped⟩ :=
    Draft.Takes.nodes (d := {}) rfl (first :: rest)
  have hall : d.nodes = first :: rest := hnodes
  rw [← hall] at hdistinct
  rw [← hstatements] at htakes
  have hend : Draft.Takes {} (statements (printScript (first :: rest) ++ "\n")) d := by
    rw [hended, ← hstatements]
    exact htakes.append (.one fun _ => rfl)
  rw [compile_of_takes htakes hwaiting hdropped hdistinct,
    compile_of_takes hend hwaiting hdropped hdistinct, hall]
  exact ⟨rfl, rfl⟩

/-- An arrow in a choice does not point to its target, and `#` and `*` are only characters there. -/
theorem stairs_are_read_back :
    let stairs : Node := ⟨"stairs", [⟨"Up or down?", ["char:host", "calm"]⟩],
      [⟨"* Up -> to the #1 attic", "attic"⟩], none⟩
    let attic : Node := { id := "attic", next := some "END" }
    printScript [stairs, attic] = "=== stairs\n# char:host\n# calm\nUp or down?\n" ++
        "* * Up -> to the #1 attic -> attic\n=== attic\n-> END" ∧
      compile (printScript [stairs, attic]) =
        ⟨.ok ⟨"compiled", "stairs", [stairs, attic]⟩, []⟩ := by
  intro stairs attic
  have hname (s : String) (h : s.toList ≠ [] ∧ s.toList.all Text.isWordChar = true) :
      Text.IsName s.toList := ⟨h.1, List.all_eq_true.1 h.2⟩
  have hfills (s : String) (h : s ≠ "" ∧ Text.trimString s = s ∧ '\n' ∉ s.toList) : FillsLine s :=
    ⟨h.1, h.2.1, h.2.2⟩
  have hstairs : stairs.Printable := by
    refine ⟨hname _ (by decide +kernel), ?_, ?_, nofun⟩
    · rintro l (_ | ⟨_, ⟨⟩⟩)
      refine ⟨hfills _ (by decide +kernel), by decide +kernel, by decide +kernel, by decide +kernel,
        by decide +kernel, by decide +kernel, ?_⟩
      rintro t (_ | ⟨_, _ | ⟨_, ⟨⟩⟩⟩)
      · exact ⟨hfills _ (by decide +kernel), by decide +kernel⟩
      · exact ⟨hfills _ (by decide +kernel), by decide +kernel⟩
    · rintro b (_ | ⟨_, ⟨⟩⟩)
      exact ⟨hfills _ (by decide +kernel), hname _ (by decide +kernel)⟩
  have hattic : attic.Printable := by
    refine ⟨hname _ (by decide +kernel), nofun, nofun, ?_⟩
    rintro t ⟨⟩
    exact hname _ (by decide +kernel)
  have hprintable : ∀ n ∈ [stairs, attic], n.Printable := by
    rintro n (_ | ⟨_, _ | ⟨_, ⟨⟩⟩⟩)
    · exact hstairs
    · exact hattic
  exact ⟨by decide +kernel, (printed_scripts_are_read_back hprintable (by decide +kernel)).1⟩

end VisualNovel.Story
