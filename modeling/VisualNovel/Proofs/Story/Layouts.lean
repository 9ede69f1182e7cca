import VisualNovel.Proofs.Story.Passages
import VisualNovel.Proofs.Text.Pieces
/-!
# The layout of a script

Lines that say nothing may stand anywhere in a script, and blanks at the ends of its lines
(`Relaid`). A carriage return in front of the line feed is such a blank (`withReturns`). A line says
the same with blanks around it (`Padded.ofLine_eq`), and one that says nothing leaves a draft as it
is. So a draft takes in the same statements in any layout, and comes to the same fault on a line
that has moved (`Draft.addAll_relaid`).

Result:
* `layout_does_not_matter`: in another layout a script compiles to the same story, or is refused for
  the same reason, which is told with the new number of the line that is at fault.
-/
namespace VisualNovel.Story
open Text (Blank isBlank splitAt trim)

/-! ## Layouts -/

/-- A line that says nothing: it is blank, or a comment. -/
inductive Silent : List Char → Prop
  | blank {line : List Char} (h : Blank line) : Silent line
  | comment {lead : List Char} (h : Blank lead) (words : List Char) :
    Silent (lead ++ '/' :: '/' :: words)

/-- A line with blanks put at its ends. -/
def Padded (line line' : List Char) : Prop :=
  ∃ lead trail, Blank lead ∧ Blank trail ∧ line' = lead ++ line ++ trail

/-- The lines of a script in another layout, and the place that each of the old lines has got. -/
inductive Relaid : List (List Char) → List (List Char) → List Nat → Prop
  | nil : Relaid [] [] []
  | line {line line' : List Char} {lines lines' : List (List Char)} {places : List Nat}
    (h : Padded line line') (hrest : Relaid lines lines' places) :
    Relaid (line :: lines) (line' :: lines') (0 :: places.map (· + 1))
  | silent {line : List Char} {lines lines' : List (List Char)} {places : List Nat}
    (h : Silent line) (hrest : Relaid lines lines' places) :
    Relaid lines (line :: lines') (places.map (· + 1))

/-- A text with a carriage return in front of every line feed. -/
def withReturns (text : String) : String :=
  .ofList (text.toList.flatMap fun c => if c = '\n' then ['\r', '\n'] else [c])

/-- Each old line stands in its new place, with blanks at its ends. -/
theorem Relaid.padded {lines lines' : List (List Char)} {places : List Nat}
    (h : Relaid lines lines' places) {n place : Nat} (hplace : places[n]? = some place) :
    ∃ line line', lines[n]? = some line ∧ lines'[place]? = some line' ∧ Padded line line' := by
  induction h generalizing n place with
  | nil => cases hplace
  | @line line line' lines lines' places hpad _ ih =>
    cases n with
    | zero =>
      cases hplace
      exact ⟨line, line', rfl, rfl, hpad⟩
    | succ n =>
      rw [List.getElem?_cons_succ, List.getElem?_map, Option.map_eq_some_iff] at hplace
      obtain ⟨place, hplace, rfl⟩ := hplace
      exact ih hplace
  | silent _ _ ih =>
    rw [List.getElem?_map, Option.map_eq_some_iff] at hplace
    obtain ⟨place, hplace, rfl⟩ := hplace
    exact ih hplace

/-! ## What lines say in another layout -/

theorem Padded.ofLine_eq {line line' : List Char} (h : Padded line line') :
    Statement.ofLine line' = Statement.ofLine line := by
  obtain ⟨lead, trail, hlead, htrail, rfl⟩ := h
  rw [Statement.ofLine, Statement.ofLine, Text.trim_append_blank hlead htrail]

theorem Silent.ofLine_eq {line : List Char} (h : Silent line) :
    Statement.ofLine line = .nothing := by
  cases h with
  | blank h =>
    have htrim : trim line = [] := by
      simpa [show trim [] = [] from rfl] using
        Text.trim_append_blank h (List.forall_mem_nil _) []
    rw [Statement.ofLine, htrim]
    rfl
  | @comment lead h words =>
    obtain ⟨trail, htrail, hwords⟩ := Text.exists_trimEnd words
    have htrim : trim (lead ++ '/' :: '/' :: words) = '/' :: '/' :: Text.trimEnd words := by
      have hends : Text.Trimmed ('/' :: '/' :: Text.trimEnd words) := by
        refine ⟨by simp [isBlank], ?_⟩
        cases hrest : Text.trimEnd words with
        | nil => simp [isBlank]
        | cons c rest => simpa [hrest] using Text.trimEnd_last words
      calc trim (lead ++ '/' :: '/' :: words)
          = trim (lead ++ ('/' :: '/' :: Text.trimEnd words) ++ trail) := by
            rw [List.append_assoc, List.cons_append, List.cons_append, ← hwords]
        _ = trim ('/' :: '/' :: Text.trimEnd words) := Text.trim_append_blank h htrail _
        _ = '/' :: '/' :: Text.trimEnd words := Text.trim_eq_self_iff.2 hends
    rw [Statement.ofLine, htrim]
    rfl

/-! ## Drafts -/

/-- The same fault on another line; a fault that is on no single line stays. -/
def ScriptError.onLine (line : Nat) : ScriptError → ScriptError
  | continuesTwice _ node next => continuesTwice line node next
  | lineAfterChoice _ node => lineAfterChoice line node
  | duplicate node => duplicate node

theorem ScriptError.reason_onLine (line : Nat) (e : ScriptError) :
    (e.onLine line).reason = e.reason := by
  cases e <;> rfl

namespace Draft
variable {d : Draft} {lines lines' : List (List Char)} {places : List Nat}

/-- The number of a line makes no difference but to the fault on it. -/
theorem add_onLine (d : Draft) (line line' : Nat) (s : Statement) :
    d.add line' s = (d.add line s).mapError (·.onLine line') := by
  cases s with
  | divert target =>
    simp only [add]
    cases d.node.next <;> rfl
  | dialogue text tags =>
    simp only [add]
    split <;> rfl
  | _ => rfl

/-- What is wrong with a statement is on its line. -/
theorem line_of_add {line : Nat} {s : Statement} {e : ScriptError} (h : d.add line s = .error e) :
    e.line = line ∧ ∀ line', (e.onLine line').line = line' := by
  cases s with
  | divert target =>
    rw [add] at h
    split at h
    · cases h
      exact ⟨rfl, fun _ => rfl⟩
    · cases h
  | dialogue text tags =>
    rw [add] at h
    split at h
    · cases h
    · cases h
      exact ⟨rfl, fun _ => rfl⟩
  | _ => cases h

/-- In another layout a draft takes in the same, up to the same fault on a line that has moved. -/
theorem addAll_relaid (h : Relaid lines lines' places) (d : Draft) (line line' : Nat) :
    (d.addAll line' (lines'.map .ofLine)).1 = (d.addAll line (lines.map .ofLine)).1 ∧
      ((d.addAll line (lines.map .ofLine)).2 = none →
        (d.addAll line' (lines'.map .ofLine)).2 = none) ∧
      ∀ e, (d.addAll line (lines.map .ofLine)).2 = some e →
        ∃ n place, places[n]? = some place ∧ e.line = line + n ∧
          (e.onLine (line' + place)).line = line' + place ∧
          (d.addAll line' (lines'.map .ofLine)).2 = some (e.onLine (line' + place)) := by
  induction h generalizing d line line' with
  | nil => exact ⟨rfl, fun _ => rfl, fun e he => by cases he⟩
  | @line l l' lines lines' places hpad _ ih =>
    simp only [List.map_cons, addAll, hpad.ofLine_eq, d.add_onLine line line']
    cases hadd : d.add line (.ofLine l) with
    | error e =>
      obtain ⟨hline, hmoved⟩ := line_of_add hadd
      refine ⟨rfl, (by rintro ⟨⟩), ?_⟩
      rintro _ ⟨⟩
      exact ⟨0, 0, rfl, hline, hmoved line', rfl⟩
    | ok d' =>
      obtain ⟨hdraft, hnone, hsome⟩ := ih d' (line + 1) (line' + 1)
      refine ⟨hdraft, hnone, fun e he => ?_⟩
      obtain ⟨n, place, hplace, hline, hmoved, hfault⟩ := hsome e he
      refine ⟨n + 1, place + 1, by simp [hplace], by omega, ?_, ?_⟩
      · rwa [Nat.add_assoc, Nat.add_comm 1] at hmoved
      · rwa [Nat.add_assoc, Nat.add_comm 1] at hfault
  | @silent l lines lines' places hsilent _ ih =>
    simp only [List.map_cons, addAll, hsilent.ofLine_eq, add]
    obtain ⟨hdraft, hnone, hsome⟩ := ih d line (line' + 1)
    refine ⟨hdraft, hnone, fun e he => ?_⟩
    obtain ⟨n, place, hplace, hline, hmoved, hfault⟩ := hsome e he
    refine ⟨n, place + 1, by simp [hplace], hline, ?_, ?_⟩
    · rwa [Nat.add_assoc, Nat.add_comm 1] at hmoved
    · rwa [Nat.add_assoc, Nat.add_comm 1] at hfault

end Draft

/-! ## Carriage returns -/

/-- With a carriage return in front of every line feed the lines are the same, but for the carriage
returns at their ends. -/
theorem splitAt_withReturns (s : List Char) :
    List.Forall₂ (fun line line' => ∃ trail, Blank trail ∧ line' = line ++ trail) (splitAt '\n' s)
      (splitAt '\n' (s.flatMap fun c => if c = '\n' then ['\r', '\n'] else [c])) := by
  induction s with
  | nil => exact .cons ⟨[], List.forall_mem_nil _, rfl⟩ .nil
  | cons c s ih =>
    rw [List.flatMap_cons]
    by_cases hc : c = '\n'
    · rw [if_pos hc, splitAt, if_pos hc]
      exact .cons ⟨['\r'], by simp [Blank, isBlank], rfl⟩ ih
    · rw [if_neg hc, List.singleton_append, splitAt, splitAt, if_neg hc, if_neg hc]
      generalize splitAt '\n' s = lines at ih ⊢
      generalize splitAt '\n' (s.flatMap _) = lines' at ih ⊢
      cases ih with
      | nil => exact .cons ⟨[], List.forall_mem_nil _, rfl⟩ .nil
      | cons hline hlines =>
        obtain ⟨trail, htrail, rfl⟩ := hline
        exact .cons ⟨trail, htrail, rfl⟩ hlines

theorem statements_withReturns (text : String) :
    statements (withReturns text) = statements text := by
  rw [statements, statements, withReturns, String.toList_ofList]
  have hlines := splitAt_withReturns text.toList
  generalize splitAt '\n' text.toList = lines at hlines ⊢
  generalize splitAt '\n' (text.toList.flatMap _) = lines' at hlines ⊢
  induction hlines with
  | nil => rfl
  | cons hline _ ih =>
    obtain ⟨trail, htrail, hline⟩ := hline
    have hpad : Padded _ _ := ⟨[], trail, List.forall_mem_nil _, htrail, hline⟩
    rw [List.map_cons, List.map_cons, hpad.ofLine_eq, ih]

/-! ## Scripts -/

/-- **The layout of a script does not matter.** Lines that say nothing may be inserted anywhere, and
blanks put at the ends of lines: the script compiles to the same story, or it is refused for the
same reason, and the reports on tags that are dropped are the same. The line that is named is the
one that was named before, in its new place; the line number 0 stays. Carriage returns in front of
the line feeds make no difference at all. -/
theorem layout_does_not_matter {text text' : String} {places : List Nat}
    (h : Relaid (splitAt '\n' text.toList) (splitAt '\n' text'.toList) places) :
    (∀ g, (compile text).result = .ok g → (compile text').result = .ok g) ∧
      (∀ e, (compile text).result = .error e → ∃ e', (compile text').result = .error e' ∧
        e'.reason = e.reason ∧ (e.line = 0 → e'.line = 0) ∧
        ∀ n, e.line = n + 1 → ∃ place line line', places[n]? = some place ∧
          (splitAt '\n' text.toList)[n]? = some line ∧
          (splitAt '\n' text'.toList)[place]? = some line' ∧ Padded line line' ∧
          e'.line = place + 1) ∧
      (compile text').log = (compile text).log ∧
      compile (withReturns text') = compile text' := by
  have hreturns : compile (withReturns text') = compile text' := by
    rw [compile, statements_withReturns, ← compile]
  obtain ⟨hdraft, hnone, hsome⟩ := Draft.addAll_relaid h {} 1 1
  rw [← statements, ← statements] at hdraft hnone hsome
  obtain ⟨⟨d, fault⟩, hread⟩ : ∃ r, Draft.addAll {} 1 (statements text) = r := ⟨_, rfl⟩
  obtain ⟨⟨d', fault'⟩, hread'⟩ : ∃ r, Draft.addAll {} 1 (statements text') = r := ⟨_, rfl⟩
  rw [hread, hread'] at hdraft hsome
  rw [hread, hread'] at hnone
  obtain rfl : d' = d := hdraft
  cases fault with
  | none =>
    obtain rfl : fault' = none := hnone rfl
    have hsame : compile text' = compile text := by rw [compile, compile, hread, hread']
    refine ⟨fun g hg => by rw [hsame, hg], fun e he => ⟨e, by rw [hsame, he], rfl, id, ?_⟩,
      by rw [hsame], hreturns⟩
    intro n hn
    -- Two nodes have one id, and that is on no line.
    rw [compile, hread] at he
    dsimp only at he
    split at he
    · cases he
      cases hn
    · cases he
  | some e =>
    obtain ⟨n, place, hplace, hline, hmoved, rfl⟩ := hsome e rfl
    have hresult : (compile text).result = .error e := by rw [compile, hread]
    have hresult' : (compile text').result = .error (e.onLine (1 + place)) := by
      rw [compile, hread']
    obtain ⟨line, line', hold, hnew, hpad⟩ := h.padded hplace
    refine ⟨fun g hg => ?_, fun e' he' => ?_, ?_, hreturns⟩
    · rw [hresult] at hg
      cases hg
    · rw [hresult] at he'
      cases he'
      refine ⟨_, hresult', e.reason_onLine _, fun h0 => by omega, fun m hm => ?_⟩
      obtain rfl : m = n := by omega
      exact ⟨place, line, line', hplace, hold, hnew, hpad, by rw [hmoved, Nat.add_comm]⟩
    · rw [compile, compile, hread, hread']
      rfl

/-- A line of dialogue behind a choice is named by its number, wherever it has moved. -/
theorem porch_is_refused_further_down :
    let text := "# calm\nHi!\n* Up -> loft\nNo."
    let text' := "\t# calm\r\n\n // Come in.\nHi! \n* Up -> loft\n\nNo."
    Relaid (splitAt '\n' text.toList) (splitAt '\n' text'.toList) [0, 3, 4, 6] ∧
      (compile text).result = .error (.lineAfterChoice 4 "start") ∧
      ∃ e', (compile text').result = .error e' ∧
        e'.reason = "dialogue after choices in node 'start'" ∧ e'.line = 7 := by
  intro text text'
  have hold : splitAt '\n' text.toList =
      ["# calm".toList, "Hi!".toList, "* Up -> loft".toList, "No.".toList] := by decide +kernel
  have hnew : splitAt '\n' text'.toList =
      ['\t' :: "# calm".toList ++ ['\r'], [], ' ' :: "// Come in.".toList, "Hi!".toList ++ [' '],
        "* Up -> loft".toList, [], "No.".toList] := by decide +kernel
  have hrelaid : Relaid (splitAt '\n' text.toList) (splitAt '\n' text'.toList) [0, 3, 4, 6] := by
    have hnil : Blank [] := List.forall_mem_nil _
    have hone (c : Char) (hc : isBlank c = true) : Blank [c] := List.forall_mem_singleton.2 hc
    have hsame (line : List Char) : Padded line line :=
      ⟨[], [], hnil, hnil, (List.append_nil line).symm⟩
    have hpadded : Padded "Hi!".toList ("Hi!".toList ++ [' ']) :=
      ⟨[], [' '], hnil, hone ' ' rfl, rfl⟩
    have htail := Relaid.line (hsame "* Up -> loft".toList)
      (.silent (.blank hnil) (.line (hsame "No.".toList) .nil))
    have hhead := Relaid.silent (.blank hnil) (.silent (.comment (hone ' ' rfl) " Come in.".toList)
      (.line hpadded htail))
    rw [hold, hnew]
    exact .line ⟨['\t'], ['\r'], hone '\t' rfl, hone '\r' rfl, rfl⟩ hhead
  have hrefused : (compile text).result = .error (.lineAfterChoice 4 "start") := by decide +kernel
  obtain ⟨e', hresult, hreason, -, hplace⟩ := (layout_does_not_matter hrelaid).2.1 _ hrefused
  obtain ⟨place, -, -, hplace, -, -, -, hline⟩ := hplace 3 rfl
  cases hplace
  exact ⟨hrelaid, hrefused, e', hresult, hreason.trans (by decide +kernel), hline⟩

end VisualNovel.Story
