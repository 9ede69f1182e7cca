import VisualNovel.Proofs.Story.Choices
import VisualNovel.Proofs.Story.Passages
import VisualNovel.Proofs.Story.Printing
import VisualNovel.Proofs.Text.Rows
/-!
# Texts of compiled scripts

The texts in a script are trimmed as they are read, so that a line of dialogue, a tag and the text of
a choice fill a line each (`FillsLine`): there is something in them, no blank at either end and no
line break. It holds of every line of dialogue and every tag (`Statement.clean_ofLine`). Of choices it
holds unless there is nothing but blanks in front of the arrow, where one of these blanks becomes the
text (`compiled_texts_are_clean_iff`).
-/
namespace VisualNovel.Story
open Text (Trimmed isBlank)

theorem FillsLine.of_trimmed {s : List Char} (hne : s ≠ []) (htrimmed : Trimmed s)
    (hfeed : '\n' ∉ s) : FillsLine (.ofList s) where
  ne := by simpa using hne
  trimmed := by
    rw [Text.trimString, String.toList_ofList, Text.trim_eq_self_iff.2 htrimmed]
  unbroken := by rwa [String.toList_ofList]

/-- What is left of a text without line breaks when it is trimmed. -/
theorem FillsLine.of_trim {s : List Char} (hne : Text.trim s ≠ []) (hfeed : '\n' ∉ s) :
    FillsLine (.ofList (Text.trim s)) :=
  .of_trimmed hne (Text.trimmed_trim s) fun h => hfeed (Text.mem_of_mem_trim h)

/-! ## Lines -/

namespace Statement
variable {s : List Char}

/-- The lines of dialogue and the tags in a statement fill their lines. -/
structure Clean (s : Statement) : Prop where
  line : ∀ text ∈ s.line?, FillsLine text
  tags : ∀ t ∈ s.allTags, FillsLine t

theorem fillsLine_of_mem_splitTags (hfeed : '\n' ∉ s) {t : String} (h : t ∈ splitTags s) :
    FillsLine t := by
  obtain ⟨piece, hpiece, ht⟩ := List.mem_filterMap.1 h
  rw [Option.ite_none_left_eq_some] at ht
  obtain ⟨hne, ht⟩ := ht
  cases ht
  obtain ⟨raw, hraw, rfl⟩ := List.mem_map.1 hpiece
  exact .of_trim (by simpa using hne) fun hmem => hfeed (Text.mem_of_mem_splitAt hraw hmem)

/-- What stands in front of the first `#` of a line, unless that begins with it. -/
theorem fillsLine_of_line (htrimmed : Trimmed s) (hne : s ≠ []) (hhash : s.head? ≠ some '#')
    (hfeed : '\n' ∉ s) : FillsLine (.ofList (Text.trim (s.takeWhile (· ≠ '#')))) := by
  refine .of_trim ?_ fun h => hfeed (List.takeWhile_prefix _ |>.subset h)
  obtain ⟨c, rest, rfl⟩ := List.exists_cons_of_ne_nil hne
  have hc : isBlank c = false := htrimmed.head c rfl
  have htake : (c :: rest).takeWhile (· ≠ '#') = c :: rest.takeWhile (· ≠ '#') :=
    List.takeWhile_cons_of_pos (by simpa using hhash)
  rw [htake, Text.trim, Text.trimStart_eq_self (by simpa using hc), ne_eq, Text.trimEnd_eq_nil_iff]
  intro hblank
  rw [hblank c List.mem_cons_self] at hc
  cases hc

theorem clean_ofTrimmed (htrimmed : Trimmed s) (hfeed : '\n' ∉ s) : (ofTrimmed s).Clean := by
  have htags {t : List Char} (ht : t ⊆ s) : ∀ tag ∈ splitTags t, FillsLine tag :=
    fun _ => fillsLine_of_mem_splitTags fun hmem => hfeed (ht hmem)
  unfold ofTrimmed
  split
  · exact ⟨nofun, nofun⟩
  next hsays =>
  split
  · exact ⟨nofun, nofun⟩
  split
  · exact ⟨nofun, htags (List.Subset.refl s)⟩
  next hhash =>
  split
  · exact ⟨nofun, nofun⟩
  split
  · exact ⟨nofun, nofun⟩
  · have hne : s ≠ [] := by
      rintro rfl
      exact hsays rfl
    refine ⟨?_, htags fun c hc => ?_⟩
    · rintro text ⟨⟩
      exact fillsLine_of_line htrimmed hne hhash hfeed
    · exact List.dropWhile_suffix _ |>.subset (List.mem_of_mem_drop hc)

theorem clean_ofLine {line : List Char} (hfeed : '\n' ∉ line) : (ofLine line).Clean :=
  clean_ofTrimmed (Text.trimmed_trim line) fun h => hfeed (Text.mem_of_mem_trim h)

end Statement

/-! ## Compiled scripts -/

/-- Every statement of a script is that of a line without line breaks. -/
theorem mem_statements {text : String} {s : Statement} (h : s ∈ statements text) :
    ∃ line ∈ Text.splitAt '\n' text.toList, '\n' ∉ line ∧ Statement.ofLine line = s := by
  obtain ⟨line, hline, rfl⟩ := List.mem_map.1 h
  exact ⟨line, hline, Text.not_mem_of_mem_splitAt hline, rfl⟩

theorem clean_statements {text : String} {s : Statement} (h : s ∈ statements text) : s.Clean := by
  obtain ⟨line, -, hfeed, rfl⟩ := mem_statements h
  exact Statement.clean_ofLine hfeed

/-- The choices in a script that compiles are those of its lines. -/
theorem mem_choices_iff {text : String} {g : Graph} (h : (compile text).result = .ok g)
    {b : Branch} : (∃ n ∈ g.nodes, b ∈ n.choices) ↔
      ∃ line ∈ Text.splitAt '\n' text.toList,
        Statement.choice? (Text.trim line) = some (b.text, b.next) := by
  obtain ⟨made, hmade, hnodes, -⟩ := made_of_compile h
  have hall : g.nodes.flatMap (·.choices) = (statements text).filterMap Statement.branch? := by
    rw [filterMap_passages (fun _ => rfl) rfl, hnodes, List.flatMap_map]
    exact (flatMap_of_made hmade fun _ _ hm => hm.choices.symm).symm
  have hbranch {s : Statement} : s.branch? = some b ↔ s = .choice b.text b.next := by
    obtain ⟨offer, target⟩ := b
    cases s <;> simp [Statement.branch?]
  rw [← List.mem_flatMap, hall, List.mem_filterMap]
  simp only [hbranch, statements, List.mem_map, exists_eq_right, Statement.ofLine,
    Statement.ofTrimmed_eq_choice_iff]

/-- The lines of dialogue in a script that compiles, and their tags. -/
theorem fillsLine_of_mem_lines {text : String} {g : Graph} (h : (compile text).result = .ok g)
    {n : Node} (hn : n ∈ g.nodes) {l : Line} (hl : l ∈ n.lines) :
    FillsLine l.text ∧ ∀ t ∈ l.tags, FillsLine t := by
  obtain ⟨made, hmade, hnodes, -⟩ := made_of_compile h
  have htexts : g.nodes.flatMap (fun n => n.lines.map (·.text)) =
      (statements text).filterMap Statement.line? := by
    rw [filterMap_passages (fun _ => rfl) rfl, hnodes, List.flatMap_map]
    exact (flatMap_of_made hmade fun _ _ hm => hm.lines.texts.symm).symm
  constructor
  · have hmem : l.text ∈ (statements text).filterMap Statement.line? := by
      rw [← htexts]
      exact List.mem_flatMap.2 ⟨n, hn, List.mem_map_of_mem hl⟩
    obtain ⟨s, hs, hline⟩ := List.mem_filterMap.1 hmem
    exact (clean_statements hs).line _ hline
  · intro t ht
    obtain ⟨m, hm, rfl⟩ := List.mem_map.1 (hnodes ▸ hn)
    have hmem : t ∈ (statements text).flatMap Statement.allTags := by
      rw [tags_of_made hmade]
      exact List.mem_flatMap.2
        ⟨m, hm, List.mem_append_left _ (List.mem_flatMap.2 ⟨l, hl, ht⟩)⟩
    obtain ⟨s, hs, htag⟩ := List.mem_flatMap.1 hmem
    exact (clean_statements hs).tags t htag

/-- The text of a choice fills its line, or the choice has none and one of the blanks in front of its
arrow is the text. -/
theorem Statement.fillsLine_of_choice? {line : List Char} (hfeed : '\n' ∉ line)
    {text target : String} (h : choice? (Text.trim line) = some (text, target)) :
    (FillsLine text ∧ ¬BareChoice (Text.trim line)) ∨
      (¬FillsLine text ∧ BareChoice (Text.trim line)) ∧
        ∃ c, isBlank c = true ∧ text = .ofList [c] := by
  obtain ⟨lead, hpreferred⟩ := choice?_eq_some_iff.1 h
  by_cases htrimmed : Trimmed text.toList
  · left
    have hunbroken : '\n' ∉ text.toList := by
      obtain ⟨trail, -, gap, name, rest, -, -, -, -, hs⟩ := hpreferred.points
      intro hmem
      refine hfeed (Text.mem_of_mem_trim ?_)
      rw [hs]
      simp [hmem]
    have hfills := FillsLine.of_trimmed hpreferred.ne htrimmed hunbroken
    rw [String.ofList_toList] at hfills
    exact ⟨hfills, fun hbare => hpreferred.not_trimmed_iff.2 hbare htrimmed⟩
  · right
    obtain ⟨c, hc, htext⟩ := hpreferred.trimmed_or_blank.resolve_left htrimmed
    refine ⟨⟨fun hfills => htrimmed hfills.trimmed_toList, hpreferred.not_trimmed_iff.1 htrimmed⟩,
      c, hc, ?_⟩
    rw [← htext, String.ofList_toList]

/-- **Compiled texts are clean, but for choices without a text.** In a script that compiles every
line of dialogue and every tag fills a line, and so does the text of a choice unless it is a single
blank. All of them do exactly if no line of the script is a choice with nothing but blanks between
its star and its arrow. -/
theorem compiled_texts_are_clean_iff {text : String} {g : Graph}
    (h : (compile text).result = .ok g) :
    (∀ n ∈ g.nodes, ∀ l ∈ n.lines, FillsLine l.text ∧ ∀ t ∈ l.tags, FillsLine t) ∧
      (∀ n ∈ g.nodes, ∀ b ∈ n.choices,
        FillsLine b.text ∨ ∃ c, isBlank c = true ∧ b.text = .ofList [c]) ∧
      ((∀ n ∈ g.nodes, ∀ b ∈ n.choices, FillsLine b.text) ↔
        ∀ line ∈ Text.splitAt '\n' text.toList, ¬Statement.BareChoice (Text.trim line)) := by
  refine ⟨fun n hn l hl => fillsLine_of_mem_lines h hn hl, ?_, ?_, ?_⟩
  · intro n hn b hb
    obtain ⟨line, hline, hchoice⟩ := (mem_choices_iff h).1 ⟨n, hn, hb⟩
    exact (Statement.fillsLine_of_choice? (Text.not_mem_of_mem_splitAt hline) hchoice).imp
      And.left And.right
  · intro hfills line hline hbare
    obtain ⟨offer, target, hchoice⟩ := hbare.exists_choice?
    obtain ⟨n, hn, hb⟩ := (mem_choices_iff h (b := ⟨offer, target⟩)).2 ⟨line, hline, hchoice⟩
    obtain ⟨-, hnot⟩ | ⟨⟨hnot, -⟩, -⟩ :=
      Statement.fillsLine_of_choice? (Text.not_mem_of_mem_splitAt hline) hchoice
    · exact hnot hbare
    · exact hnot (hfills n hn _ hb)
  · intro hnone n hn b hb
    obtain ⟨line, hline, hchoice⟩ := (mem_choices_iff h).1 ⟨n, hn, hb⟩
    obtain ⟨hfills, -⟩ | ⟨⟨-, hbare⟩, -⟩ :=
      Statement.fillsLine_of_choice? (Text.not_mem_of_mem_splitAt hline) hchoice
    · exact hfills
    · exact absurd hbare (hnone line hline)

/-- A choice without a text is offered with a blank. -/
theorem doorway_offers_a_blank :
    let text := "Well? # char:host\n*  Up  -> END\n* -> END"
    let start : Node :=
      ⟨"start", [⟨"Well?", ["char:host"]⟩], [⟨"Up", "END"⟩, ⟨" ", "END"⟩], none⟩
    (compile text).result = .ok ⟨"compiled", "start", [start]⟩ ∧
      ¬∀ line ∈ Text.splitAt '\n' text.toList, ¬Statement.BareChoice (Text.trim line) := by
  intro text start
  have hcompiled : (compile text).result = .ok ⟨"compiled", "start", [start]⟩ := by
    decide +kernel
  obtain ⟨-, -, hclean⟩ := compiled_texts_are_clean_iff hcompiled
  refine ⟨hcompiled, fun hnone => ?_⟩
  have hfills : FillsLine " " :=
    hclean.2 hnone start List.mem_cons_self ⟨" ", "END"⟩ (by simp [start])
  have hblank : Text.trimString " " ≠ " " := by decide +kernel
  exact hblank hfills.trimmed

end VisualNovel.Story
