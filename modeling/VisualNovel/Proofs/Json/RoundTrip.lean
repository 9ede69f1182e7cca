import Mathlib.Data.List.Forall2
import VisualNovel.Proofs.Json.Strings
/-!
# Values that are written and read back

A text says a value if the value is read from it, whatever follows (`Says`). Lists and objects of
texts that say values say lists and objects of these values, in every layout that puts nothing but a
comma and blanks between them (`says_arr`, `says_obj`). So a value without numbers is read back from
what it is written as, in either layout (`Plain.says_written`), and a text that says a value is
parsed to it (`parse_said`).
-/
namespace VisualNovel.Json

/-! ## Blanks -/

/-- What may stand between two tokens of a text, a carriage return apart. -/
def IsGap (s : List Char) : Prop := ∀ c ∈ s, c = ' ' ∨ c = '\n'

theorem skipBlanks_append {gap : List Char} (h : IsGap gap) (rest : List Char) :
    skipBlanks (gap ++ rest) = skipBlanks rest := by
  induction gap with
  | nil => rfl
  | cons c gap ih =>
    have hgap := ih fun d hd => h d (List.mem_cons_of_mem _ hd)
    rcases h c List.mem_cons_self with rfl | rfl
    · exact hgap
    · exact hgap

/-- A layout that puts a comma and blanks between two items, and blanks beside the brackets. -/
structure Layout.Neat (l : Layout) : Prop where
  opening : ∀ d, IsGap (l.opening d)
  closing : ∀ d, IsGap (l.closing d)
  separator : ∀ d, ∃ gap, l.separator d = ',' :: gap ∧ IsGap gap

theorem isGap_newLine (depth : Nat) : IsGap (newLine depth) := by
  intro c hc
  rcases List.mem_cons.1 hc with rfl | hc
  · exact .inr rfl
  · exact .inl (List.eq_of_mem_replicate hc)

theorem Layout.neat_line : Layout.line.Neat where
  opening _ := nofun
  closing _ := nofun
  separator _ := ⟨[' '], rfl, by simp [IsGap]⟩

theorem Layout.neat_indented : Layout.indented.Neat where
  opening _ := isGap_newLine _
  closing _ := isGap_newLine _
  separator _ := ⟨_, rfl, isGap_newLine _⟩

/-! ## Texts that say values -/

/-- A text says a value, where there is room for so many levels: the value is read from it, whatever
follows. -/
structure Says (room : Nat) (s : List Char) (j : Json) : Prop where
  /-- It begins with neither a blank nor the end of a list. -/
  begins : ∃ c t, s = c :: t ∧ c ∉ [' ', '\t', '\n', '\r', ']']
  noReturn : '\r' ∉ s
  reads : ∀ fuel rest, 2 * s.length ≤ fuel → readValue fuel room (s ++ rest) = .ok (j, rest)

namespace Says
variable {room fuel : Nat} {s : List Char} {j : Json}

theorem skipBlanks (h : Says room s j) (rest : List Char) : skipBlanks (s ++ rest) = s ++ rest := by
  obtain ⟨c, t, rfl, hc⟩ := h.begins
  simp only [List.mem_cons, List.not_mem_nil, or_false, not_or] at hc
  exact List.dropWhile_cons_of_neg (by simp [hc])

theorem null (room : Nat) : Says room ['n', 'u', 'l', 'l'] .null where
  begins := ⟨_, _, rfl, by decide⟩
  noReturn := by decide
  reads fuel rest hfuel := by
    obtain ⟨fuel, rfl⟩ : ∃ f, fuel = f + 1 := ⟨fuel - 1, by simp at hfuel; omega⟩
    rfl

theorem str (room : Nat) {code : Char → Nat} {s : String} (h : ∀ c ∈ s.toList, Stands code c) :
    Says room (writeString code s) (.str s) where
  begins := ⟨_, _, rfl, by decide⟩
  noReturn := noReturn_writeString code s
  reads fuel rest hfuel := by
    obtain ⟨fuel, rfl⟩ : ∃ f, fuel = f + 1 := ⟨fuel - 1, by simp [writeString] at hfuel; omega⟩
    simp [writeString, readValue, readText_writeString h, Except.map]

end Says

/-- A text says a member of an object. -/
def SaysMember (room : Nat) (s : List Char) (m : String × Json) : Prop :=
  ∃ code t, s = writeString code m.1 ++ ':' :: ' ' :: t ∧ (∀ c ∈ m.1.toList, Stands code c) ∧
    Says room t m.2

/-! ## Lists and objects -/

section
variable {room : Nat} {gap closing : List Char} {parts : List (List Char)}

theorem joined_cons (separator part next : List Char) (parts : List (List Char)) :
    joined separator (part :: next :: parts) =
      part ++ (separator ++ joined separator (next :: parts)) := by
  simp [joined]

theorem joined_begins (separator part : List Char) (parts : List (List Char)) :
    ∃ t, joined separator (part :: parts) = part ++ t := by
  cases parts with
  | nil => exact ⟨[], by simp [joined]⟩
  | cons next parts => exact ⟨_, joined_cons ..⟩

/-- In front of the first part there may be a gap. -/
theorem skipBlanks_joined (hgap : IsGap gap) (separator : List Char) {part : List Char}
    (hpart : ∀ s, skipBlanks (part ++ s) = part ++ s) (parts : List (List Char)) (s : List Char) :
    skipBlanks (gap ++ (joined separator (part :: parts) ++ s)) =
      joined separator (part :: parts) ++ s := by
  obtain ⟨t, ht⟩ := joined_begins separator part parts
  rw [skipBlanks_append hgap, ht, List.append_assoc, hpart]

theorem skipBlanks_comma (s : List Char) : skipBlanks (',' :: s) = ',' :: s := rfl

/-- The items of a list are read up to its closing bracket. -/
theorem readItems_joined (hgap : IsGap gap) (hclosing : IsGap closing) {items : List Json}
    (h : List.Forall₂ (Says room) parts items) (hne : parts ≠ []) (rest : List Char) {fuel : Nat}
    (hfuel : 2 * (joined (',' :: gap) parts).length < fuel) :
    readItems fuel room (joined (',' :: gap) parts ++ (closing ++ ']' :: rest)) =
      .ok (items, rest) := by
  induction h generalizing fuel with
  | nil => exact absurd rfl hne
  | @cons part item parts items hpart hparts ih =>
    obtain ⟨fuel, rfl⟩ : ∃ f, fuel = f + 1 := ⟨fuel - 1, by omega⟩
    cases hparts with
    | nil =>
      have hread := hpart.reads fuel (closing ++ ']' :: rest) (by simp [joined] at hfuel; omega)
      have hend : skipBlanks (closing ++ ']' :: rest) = ']' :: rest := skipBlanks_append hclosing _
      simp [joined, readItems, hread, hend, bind, Except.bind]
    | @cons next item' parts items' hnext hparts =>
      rw [joined_cons] at hfuel ⊢
      simp only [List.length_append, List.length_cons] at hfuel
      have hread (s : List Char) := hpart.reads fuel s (by omega)
      have hitems := ih (List.cons_ne_nil _ _) (show _ < fuel by omega)
      simp [readItems, hread, skipBlanks_comma, skipBlanks_joined hgap _ hnext.skipBlanks, hitems,
        bind, Except.bind]

theorem mem_joined {c : Char} {separator : List Char} (h : c ∈ joined separator parts) :
    c ∈ separator ∨ ∃ part ∈ parts, c ∈ part := by
  induction parts with
  | nil => cases h
  | cons part parts ih =>
    cases parts with
    | nil => exact .inr ⟨part, List.mem_cons_self, by simpa [joined] using h⟩
    | cons next parts =>
      rw [joined_cons, List.mem_append, List.mem_append] at h
      rcases h with h | h | h
      · exact .inr ⟨part, List.mem_cons_self, h⟩
      · exact .inl h
      · exact (ih h).imp_right fun ⟨q, hq, hc⟩ => ⟨q, List.mem_cons_of_mem _ hq, hc⟩

theorem IsGap.noReturn (h : IsGap gap) : '\r' ∉ gap := by
  intro hmem
  rcases h _ hmem with h | h <;> revert h <;> decide

theorem Layout.Neat.noReturn_bracket {l : Layout} (hl : l.Neat) (depth : Nat) {left right : Char}
    (hleft : left ≠ '\r') (hright : right ≠ '\r') (h : ∀ part ∈ parts, '\r' ∉ part) :
    '\r' ∉ l.bracket depth left right parts := by
  obtain ⟨gap, hseparator, hgap⟩ := hl.separator depth
  have hjoined : '\r' ∉ joined (l.separator depth) parts := by
    intro hmem
    rcases mem_joined hmem with hsep | ⟨part, hpart, hmem⟩
    · rw [hseparator, List.mem_cons] at hsep
      exact hgap.noReturn (hsep.resolve_left (by decide))
    · exact h part hpart hmem
  unfold Layout.bracket
  split
  · simp [hleft.symm, hright.symm]
  · simp [hleft.symm, hright.symm, hjoined, (hl.opening depth).noReturn,
      (hl.closing depth).noReturn]

theorem bracket_append (l : Layout) (depth : Nat) (left right : Char) (hne : parts ≠ [])
    (rest : List Char) : l.bracket depth left right parts ++ rest =
      left :: (l.opening depth ++ (joined (l.separator depth) parts ++
        (l.closing depth ++ right :: rest))) := by
  rw [Layout.bracket, if_neg (by simpa using hne)]
  simp

theorem two_le_length_bracket (l : Layout) (depth : Nat) (left right : Char) :
    2 + (joined (l.separator depth) parts).length ≤ (l.bracket depth left right parts).length := by
  unfold Layout.bracket
  split
  · next hnil =>
    rw [List.isEmpty_iff] at hnil
    subst hnil
    exact Nat.le_refl _
  · simp only [List.length_cons, List.length_append, List.length_nil]
    omega

theorem readValue_items {fuel : Nat} {s t rest : List Char} {c : Char} {items : List Json}
    (hskip : skipBlanks s = c :: t) (hc : c ≠ ']')
    (hitems : readItems fuel room (c :: t) = .ok (items, rest)) :
    readValue (fuel + 1) (room + 1) ('[' :: s) = .ok (.arr items, rest) := by
  simp [readValue, enter, hskip, hc, hitems, bind, Except.bind, Except.map]

/-- A list of texts that say values says the list of these values. -/
theorem says_arr {l : Layout} (hl : l.Neat) (depth : Nat) {items : List Json}
    (h : List.Forall₂ (Says room) parts items) :
    Says (room + 1) (l.bracket depth '[' ']' parts) (.arr items) where
  begins := by
    unfold Layout.bracket
    split <;> exact ⟨_, _, rfl, by decide⟩
  noReturn := by
    apply hl.noReturn_bracket depth (by decide) (by decide)
    exact ((List.forall₂_and_left parts items).1 (h.imp fun _ _ hs => ⟨hs.noReturn, hs⟩)).1
  reads fuel rest hfuel := by
    obtain ⟨gap, hseparator, hgap⟩ := hl.separator depth
    have hlength : 2 + (joined (l.separator depth) parts).length ≤
        (l.bracket depth '[' ']' parts).length := two_le_length_bracket ..
    obtain ⟨fuel, rfl⟩ : ∃ f, fuel = f + 1 := ⟨fuel - 1, by omega⟩
    cases h with
    | nil => rfl
    | @cons part item parts items hpart hparts =>
      rw [hseparator] at hlength
      have hitems := readItems_joined hgap (hl.closing depth) (.cons hpart hparts)
        (List.cons_ne_nil _ _) rest (show _ < fuel by omega)
      obtain ⟨t, ht⟩ := joined_begins (',' :: gap) part parts
      obtain ⟨c, u, rfl, hc⟩ := hpart.begins
      have hend : c ≠ ']' := by
        rintro rfl
        simp at hc
      rw [bracket_append l depth _ _ (List.cons_ne_nil _ _), hseparator]
      have hskip := skipBlanks_joined (hl.opening depth) (',' :: gap) hpart.skipBlanks parts
      rw [ht] at hitems hskip ⊢
      exact readValue_items (hskip _) hend hitems

theorem SaysMember.skipBlanks {s : List Char} {m : String × Json} (h : SaysMember room s m)
    (rest : List Char) : skipBlanks (s ++ rest) = s ++ rest := by
  obtain ⟨code, t, rfl, -⟩ := h
  rfl

theorem SaysMember.noReturn {s : List Char} {m : String × Json} (h : SaysMember room s m) :
    '\r' ∉ s := by
  obtain ⟨code, t, rfl, -, ht⟩ := h
  simp [noReturn_writeString, ht.noReturn]

/-- A member is read, and then the object ends or goes on behind a comma. -/
theorem SaysMember.reads {s : List Char} {m : String × Json} (h : SaysMember room s m)
    {done : List (String × Json)} (hnew : m.1 ∉ Assoc.keys done) {fuel : Nat}
    (hfuel : 2 * s.length ≤ fuel) {rest next : List Char} :
    (Json.skipBlanks rest = '\x7d' :: next →
      readMembers (fuel + 1) room done (s ++ rest) = .ok (done ++ [m], next)) ∧
    (Json.skipBlanks rest = ',' :: next →
      readMembers (fuel + 1) room done (s ++ rest) =
        readMembers fuel room (done ++ [m]) (Json.skipBlanks next)) := by
  obtain ⟨code, t, rfl, hname, hvalue⟩ := h
  obtain ⟨name, value⟩ := m
  have hread := hvalue.reads fuel rest (by simp at hfuel; omega)
  have hcolon (s : List Char) : Json.skipBlanks (':' :: s) = ':' :: s := rfl
  have hspace (s : List Char) : Json.skipBlanks (' ' :: (t ++ s)) = t ++ s := hvalue.skipBlanks s
  constructor <;> intro hrest <;>
    simp [writeString, readMembers, readText_writeString hname, hcolon, hspace, hread, hrest,
      Assoc.upsert_of_not_mem hnew, bind, Except.bind]

/-- The members of an object are read up to its closing brace, behind those that are there. -/
theorem readMembers_joined (hgap : IsGap gap) (hclosing : IsGap closing)
    {members : List (String × Json)} (h : List.Forall₂ (SaysMember room) parts members)
    (hne : parts ≠ []) {done : List (String × Json)}
    (hnames : (Assoc.keys (done ++ members)).Nodup) (rest : List Char) {fuel : Nat}
    (hfuel : 2 * (joined (',' :: gap) parts).length < fuel) :
    readMembers fuel room done (joined (',' :: gap) parts ++ (closing ++ '\x7d' :: rest)) =
      .ok (done ++ members, rest) := by
  induction h generalizing fuel done with
  | nil => exact absurd rfl hne
  | @cons part m parts members hpart hparts ih =>
    obtain ⟨fuel, rfl⟩ : ∃ f, fuel = f + 1 := ⟨fuel - 1, by omega⟩
    have hnew : m.1 ∉ Assoc.keys done := by
      rw [Assoc.keys, List.map_append, List.map_cons] at hnames
      intro hmem
      exact (List.nodup_append.1 hnames).2.2 _ hmem _ List.mem_cons_self rfl
    cases hparts with
    | nil =>
      have hsingle : joined (',' :: gap) [part] = part := by simp [joined]
      rw [hsingle] at hfuel ⊢
      have hend : skipBlanks (closing ++ '\x7d' :: rest) = '\x7d' :: rest :=
        skipBlanks_append hclosing _
      exact (hpart.reads hnew (by omega)).1 hend
    | @cons next m' parts members' hnext hparts =>
      rw [joined_cons, List.length_append, List.length_append, List.length_cons] at hfuel
      rw [List.append_cons] at hnames
      have hmembers := ih (List.cons_ne_nil _ _) hnames (show _ < fuel by omega)
      rw [joined_cons, List.append_assoc, List.append_assoc, List.cons_append,
        (hpart.reads hnew (by omega)).2 (skipBlanks_comma _),
        skipBlanks_joined hgap _ hnext.skipBlanks, hmembers, List.append_assoc,
        List.singleton_append]

theorem readValue_members {fuel : Nat} {s rest t : List Char} {members : List (String × Json)}
    (hskip : skipBlanks s = '"' :: t)
    (hmembers : readMembers fuel room [] ('"' :: t) = .ok (members, rest)) :
    readValue (fuel + 1) (room + 1) ('\x7b' :: s) = .ok (.obj members, rest) := by
  simp [readValue, enter, hskip, hmembers, bind, Except.bind, Except.map]

/-- An object of texts that say members says the object with these members. -/
theorem says_obj {l : Layout} (hl : l.Neat) (depth : Nat) {members : List (String × Json)}
    (h : List.Forall₂ (SaysMember room) parts members) (hnames : (Assoc.keys members).Nodup) :
    Says (room + 1) (l.bracket depth '\x7b' '\x7d' parts) (.obj members) where
  begins := by
    unfold Layout.bracket
    split <;> exact ⟨_, _, rfl, by decide⟩
  noReturn := by
    apply hl.noReturn_bracket depth (by decide) (by decide)
    exact ((List.forall₂_and_left parts members).1 (h.imp fun _ _ hs => ⟨hs.noReturn, hs⟩)).1
  reads fuel rest hfuel := by
    obtain ⟨gap, hseparator, hgap⟩ := hl.separator depth
    have hlength : 2 + (joined (l.separator depth) parts).length ≤
        (l.bracket depth '\x7b' '\x7d' parts).length := two_le_length_bracket ..
    obtain ⟨fuel, rfl⟩ : ∃ f, fuel = f + 1 := ⟨fuel - 1, by omega⟩
    cases h with
    | nil => rfl
    | @cons part m parts members hpart hparts =>
      rw [hseparator] at hlength
      have hnames' : (Assoc.keys ([] ++ m :: members)).Nodup := hnames
      have hmembers := readMembers_joined hgap (hl.closing depth) (.cons hpart hparts)
        (List.cons_ne_nil _ _) hnames' rest (show _ < fuel by omega)
      obtain ⟨t, ht⟩ := joined_begins (',' :: gap) part parts
      obtain ⟨code, u, rfl, -⟩ := id hpart
      rw [bracket_append l depth _ _ (List.cons_ne_nil _ _), hseparator]
      have hskip := skipBlanks_joined (hl.opening depth) (',' :: gap) hpart.skipBlanks parts
      rw [ht] at hmembers hskip ⊢
      exact readValue_members (hskip _) hmembers

end

/-! ## Values without numbers -/

/-- A value without numbers that does not need room for more levels, whose characters are read back
if they are written by their codes. No two members of an object have one name. -/
inductive Plain (code : Char → Nat) : (levels : Nat) → Json → Prop
  | null {levels} : Plain code levels .null
  | str {levels s} (h : ∀ c ∈ s.toList, Stands code c) : Plain code levels (.str s)
  | arr {levels items} (h : ∀ j ∈ items, Plain code levels j) : Plain code (levels + 1) (.arr items)
  | obj {levels members} (hnames : (Assoc.keys members).Nodup)
      (hstand : ∀ m ∈ members, ∀ c ∈ m.1.toList, Stands code c)
      (h : ∀ m ∈ members, Plain code levels m.2) : Plain code (levels + 1) (.obj members)

variable {code : Char → Nat} {l : Layout} {levels : Nat}

theorem forall₂_writeItems {depth : Nat} {items : List Json}
    (h : ∀ j ∈ items, Says levels (write code l depth j) j) :
    List.Forall₂ (Says levels) (writeItems code l depth items) items := by
  induction items with
  | nil =>
    rw [writeItems]
    exact .nil
  | cons j items ih =>
    rw [writeItems]
    exact .cons (h j List.mem_cons_self) (ih fun i hi => h i (List.mem_cons_of_mem _ hi))

theorem forall₂_writeMembers {depth : Nat} {members : List (String × Json)}
    (hstand : ∀ m ∈ members, ∀ c ∈ m.1.toList, Stands code c)
    (h : ∀ m ∈ members, Says levels (write code l depth m.2) m.2) :
    List.Forall₂ (SaysMember levels) (writeMembers code l depth members) members := by
  induction members with
  | nil =>
    rw [writeMembers]
    exact .nil
  | cons m members ih =>
    have hm : SaysMember levels (writeString code m.1 ++ ':' :: ' ' :: write code l depth m.2) m :=
      ⟨code, _, rfl, hstand m List.mem_cons_self, h m List.mem_cons_self⟩
    rw [writeMembers]
    exact .cons hm (ih (fun n hn => hstand n (List.mem_cons_of_mem _ hn))
      fun n hn => h n (List.mem_cons_of_mem _ hn))

/-- What a value without numbers is written as says that value. -/
theorem Plain.says_written {j : Json} (h : Plain code levels j) (hl : l.Neat) (depth : Nat) :
    Says levels (write code l depth j) j := by
  induction h generalizing depth with
  | null =>
    rw [write]
    exact .null _
  | str h =>
    rw [write]
    exact .str _ h
  | arr _ ih =>
    rw [write]
    exact says_arr hl depth (forall₂_writeItems fun j hj => ih j hj _)
  | obj hnames hstand _ ih =>
    rw [write]
    exact says_obj hl depth (forall₂_writeMembers hstand fun m hm => ih m hm _) hnames

/-- A text that says a value is parsed to it. -/
theorem parse_said {s : List Char} {j : Json} (h : Says mostLevels s j) :
    parse (.ofList s) = .ok j := by
  have hskip := h.skipBlanks []
  have hread := h.reads (2 * s.length + 2) [] (by omega)
  rw [List.append_nil] at hskip hread
  rw [parse, String.toList_ofList, hskip]
  simp only [hread, bind, Except.bind]
  rfl

end VisualNovel.Json
