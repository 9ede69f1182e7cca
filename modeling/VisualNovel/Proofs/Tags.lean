import VisualNovel.Proofs.Text.Pieces
import VisualNovel.Tag
/-!
# Reading and applying tags

A tag holds one colon, with a key in front of it and a value behind it (`Tag.Holds`); what the two
direct is told by a table with one row for each key that is known and one for all others
(`Directive.Means`). A text is read exactly if it is a tag, and as what its key and its value mean
(`Tag.parse_eq_ok_iff`); so what was written comes back, with whatever blanks around it.

Each tag of a line comes to one thing (`Tag.ComesTo`): the call that its directive asks for, or a
report.

Results:
* `unknown_speaker_is_not_read_back`: a directive that is unknown, with a key that is known, would
  not come back.
* `tags_are_read_and_applied`: which texts are refused, as what the others are read, and what the
  tags of a line do.
-/
namespace VisualNovel
open Text (Blank trim Trimmed)

namespace Directive

/-- The character that a portrait is of: all of its name, or what stands in front of the first
underscore. -/
def Depicts (portrait character : String) : Prop :=
  '_' ∉ character.toList ∧
    (portrait = character ∨ ∃ rest, portrait = character ++ "_" ++ rest)

/-- The keys that direct something. -/
def knownKeys : List String :=
  ["speaker", "expression", "splash", "playSound", "stopSound", "switchTheme"]

/-- What a key and a value direct. -/
inductive Means : String → String → Directive → Prop
  | speaker (name : String) : Means "speaker" name (.speaker name)
  | expression {character portrait : String} (h : Depicts portrait character) :
    Means "expression" portrait (.expression character portrait)
  | splash (backdrop : String) : Means "splash" backdrop (.splash backdrop)
  | playSound (sound : String) : Means "playSound" sound (.playSound sound)
  | stopSound (sound : String) : Means "stopSound" sound (.stopSound sound)
  | switchTheme (sound : String) : Means "switchTheme" sound (.switchTheme sound)
  | unknown {key : String} (h : key ∉ knownKeys) (value : String) :
    Means key value (.unknown key value)

/-- The call that a directive asks for. -/
inductive Asks : Directive → Call → Prop
  | speaker {name : String} (h : name ≠ "NONE") : Asks (.speaker name) (.name (name ++ ":"))
  | nobody : Asks (.speaker "NONE") (.name " ")
  | expression (character portrait : String) :
    Asks (.expression character portrait) (.expression character portrait)
  | splash (backdrop : String) : Asks (.splash backdrop) (.splash backdrop)
  | playSound (sound : String) : Asks (.playSound sound) (.play (.str sound))
  | stopSound (sound : String) : Asks (.stopSound sound) (.stop sound)
  | switchTheme (sound : String) : Asks (.switchTheme sound) (.switchTheme sound)

theorem characterOf_eq_iff {portrait character : String} :
    characterOf portrait = character ↔ Depicts portrait character := by
  constructor
  · rintro rfl
    refine ⟨?_, ?_⟩
    · rw [characterOf, String.toList_ofList]
      intro hmem
      simpa using List.mem_takeWhile_imp hmem
    · have hsplit := List.takeWhile_append_dropWhile (p := (· ≠ '_')) (l := portrait.toList)
      cases hrest : portrait.toList.dropWhile (· ≠ '_') with
      | nil =>
        rw [hrest, List.append_nil] at hsplit
        exact .inl (by rw [characterOf, hsplit, String.ofList_toList])
      | cons c rest =>
        have hstop := List.head?_dropWhile_not (· ≠ '_') portrait.toList
        rw [hrest] at hstop hsplit
        obtain rfl : c = '_' := by simpa using hstop
        refine .inr ⟨.ofList rest, String.toList_inj.1 ?_⟩
        rw [← hsplit]
        simp [characterOf]
  · rintro ⟨hfree, hportrait⟩
    have hall : ∀ c ∈ character.toList, decide (c ≠ '_') = true := fun c hc =>
      decide_eq_true fun h => hfree (h ▸ hc)
    obtain rfl | ⟨rest, rfl⟩ := hportrait
    · rw [characterOf, List.takeWhile_eq_self_iff.2 hall, String.ofList_toList]
    · rw [characterOf, String.toList_append, String.toList_append, List.append_assoc,
        List.takeWhile_append_of_pos hall]
      simp

/-- What is read is what the table says. -/
theorem ofKey_eq_iff {key value : String} {d : Directive} :
    ofKey key value = d ↔ Means key value d := by
  constructor
  · rintro rfl
    unfold ofKey
    split_ifs with h1 h2 h3 h4 h5 h6
    · exact h1 ▸ .speaker value
    · exact h2 ▸ .expression (characterOf_eq_iff.1 rfl)
    · exact h3 ▸ .splash value
    · exact h4 ▸ .playSound value
    · exact h5 ▸ .stopSound value
    · exact h6 ▸ .switchTheme value
    · exact .unknown (by simp [knownKeys, h1, h2, h3, h4, h5, h6]) value
  · intro h
    cases h with
    | expression h =>
      rw [← characterOf_eq_iff] at h
      rw [← h]
      rfl
    | unknown h =>
      simp only [knownKeys, List.mem_cons, List.not_mem_nil, or_false, not_or] at h
      simp [ofKey, h]
    | _ => rfl

theorem unknown_or_asks (d : Directive) : (∃ key value, d = unknown key value) ∨ ∃ c, Asks d c := by
  cases d with
  | speaker name =>
    by_cases h : name = "NONE"
    · exact .inr ⟨_, h ▸ Asks.nobody⟩
    · exact .inr ⟨_, .speaker h⟩
  | expression character portrait => exact .inr ⟨_, .expression character portrait⟩
  | splash backdrop => exact .inr ⟨_, .splash backdrop⟩
  | playSound sound => exact .inr ⟨_, .playSound sound⟩
  | stopSound sound => exact .inr ⟨_, .stopSound sound⟩
  | switchTheme sound => exact .inr ⟨_, .switchTheme sound⟩
  | unknown key value => exact .inl ⟨key, value, rfl⟩

/-- A directive is carried out by its call. -/
theorem Asks.apply_eq {d : Directive} {c : Call} (h : Asks d c) (st : Stage ω) (w : ω) :
    d.apply st w = st.perform c w := by
  cases h with
  | speaker h => exact congrArg (fun s => st.perform (.name s) w) (if_neg h)
  | _ => rfl

end Directive

/-- A stage that takes whatever directives ask for. -/
def Stage.Obliges (st : Stage ω) : Prop :=
  ∀ ⦃d c⦄, Directive.Asks d c → ∀ w, (st.perform c w).2 = none

namespace Tag

/-- A part of a tag: a text without a colon, with no blank at its ends. -/
structure IsPart (s : String) : Prop where
  ne : s ≠ ""
  trimmed : Text.trimString s = s
  plain : ':' ∉ s.toList

/-- A text is a key and a value with a colon between them, and blanks around both. -/
structure Holds (raw key value : String) : Prop where
  isPart_key : IsPart key
  isPart_value : IsPart value
  text : ∃ lead before after trail, Blank lead ∧ Blank before ∧ Blank after ∧ Blank trail ∧
    raw.toList = (lead ++ key.toList ++ before) ++ ':' :: (after ++ value.toList ++ trail)

/-- What a tag comes to. -/
inductive Deed where
  | call (c : Call)
  | report (e : Log.Entry)

/-- Does what a tag comes to. -/
def Deed.on (st : Stage ω) : Deed → ω → ω
  | call c, w => (st.perform c w).1
  | report e, w => st.report e w

/-- What each text among tags comes to. -/
inductive ComesTo : String → Deed → Prop
  | call {raw : String} {d : Directive} {c : Call} (h : parse raw = .ok d) (hc : d.Asks c) :
    ComesTo raw (.call c)
  | unknown {raw key value : String} (h : parse raw = .ok (.unknown key value)) :
    ComesTo raw (.report (Log.info ("Tag was parsed but cannot be interpreted. Tag key: " ++ key)))
  | malformed {raw : String} {e : MalformedTag} (h : parse raw = .error e) :
    ComesTo raw (.report (Log.warning ("Tag could not be parsed: " ++ Text.quoted raw)))

/-! ## Reading -/

/-- A text without a colon, or with several, is refused. -/
theorem parse_of_count {raw : String} (h : raw.toList.count ':' ≠ 1) :
    parse raw = .error ⟨raw⟩ := by
  simp [parse, h]

/-- A text with one colon is read as what stands on both sides of it, if there is something. -/
theorem parse_of_sides {raw : String} {k v : List Char} (hraw : raw.toList = k ++ ':' :: v)
    (hk : ':' ∉ k) (hv : ':' ∉ v) : parse raw =
      if trim k = [] ∨ trim v = [] then .error ⟨raw⟩
      else .ok (.ofKey (.ofList (trim k)) (.ofList (trim v))) := by
  have hall : ∀ c ∈ k, decide (c ≠ ':') = true := fun c hc =>
    decide_eq_true fun h => hk (h ▸ hc)
  have hkey : raw.toList.takeWhile (· ≠ ':') = k := by
    rw [hraw, List.takeWhile_append_of_pos hall]
    simp
  have hvalue : (raw.toList.dropWhile (· ≠ ':')).drop 1 = v := by
    rw [hraw, List.dropWhile_append_of_pos hall]
    simp
  have hcount : raw.toList.count ':' = 1 := by
    rw [hraw, List.count_append, List.count_cons_self, List.count_eq_zero_of_not_mem hk,
      List.count_eq_zero_of_not_mem hv]
  simp only [parse, hkey, hvalue, hcount, ne_eq, not_true_eq_false, decide_false, Bool.false_or,
    Bool.or_eq_true, List.isEmpty_iff]

theorem exists_sides {raw : String} (h : raw.toList.count ':' = 1) :
    ∃ k v, raw.toList = k ++ ':' :: v ∧ ':' ∉ k ∧ ':' ∉ v := by
  have hmem : ':' ∈ raw.toList := List.count_pos_iff.1 (by omega)
  obtain ⟨k, v, hraw, hk⟩ := List.eq_append_cons_of_mem hmem
  refine ⟨k, v, hraw, hk, ?_⟩
  rw [hraw, List.count_append, List.count_eq_zero_of_not_mem hk, List.count_cons_self] at h
  exact List.count_eq_zero.1 (by omega)

theorem isPart_trim {s : List Char} (hne : trim s ≠ []) (hs : ':' ∉ s) :
    IsPart (.ofList (trim s)) where
  ne h := hne (String.ofList_eq_empty_iff.1 h)
  trimmed := by rw [Text.trimString, String.toList_ofList, Text.trim_idem]
  plain h := hs (Text.mem_of_mem_trim (by rwa [String.toList_ofList] at h))

theorem IsPart.trim_toList {s : String} (h : IsPart s) : trim s.toList = s.toList := by
  rw [← String.toList_ofList (l := trim s.toList)]
  exact congrArg String.toList h.trimmed

theorem Blank.no_colon {s : List Char} (h : Blank s) : ':' ∉ s := fun hmem => by
  cases h _ hmem

/-- A part with blanks around it is a part with nothing else. -/
theorem IsPart.between {s : String} (h : IsPart s) {lead trail : List Char} (hlead : Blank lead)
    (htrail : Blank trail) : ':' ∉ lead ++ s.toList ++ trail ∧
      trim (lead ++ s.toList ++ trail) = s.toList := by
  refine ⟨?_, by rw [Text.trim_append_blank hlead htrail, h.trim_toList]⟩
  simp only [List.mem_append, not_or]
  exact ⟨⟨Blank.no_colon hlead, h.plain⟩, Blank.no_colon htrail⟩

/-- A tag is read as what its key and its value mean. -/
theorem Holds.parse_eq {raw key value : String} (h : Holds raw key value) :
    parse raw = .ok (.ofKey key value) := by
  obtain ⟨hkey, hvalue, lead, before, after, trail, h1, h2, h3, h4, hraw⟩ := h
  obtain ⟨hk, hktrim⟩ := hkey.between h1 h2
  obtain ⟨hv, hvtrim⟩ := hvalue.between h3 h4
  have hne : ¬(key.toList = [] ∨ value.toList = []) := by
    rw [not_or]
    exact ⟨fun h => hkey.ne (String.toList_eq_nil_iff.1 h),
      fun h => hvalue.ne (String.toList_eq_nil_iff.1 h)⟩
  rw [parse_of_sides hraw hk hv, hktrim, hvtrim, if_neg hne, String.ofList_toList,
    String.ofList_toList]

/-- A text that is read is a tag. -/
theorem exists_holds {raw : String} {d : Directive} (h : parse raw = .ok d) :
    ∃ key value, Holds raw key value := by
  by_cases hcount : raw.toList.count ':' = 1
  · obtain ⟨k, v, hraw, hk, hv⟩ := exists_sides hcount
    rw [parse_of_sides hraw hk hv] at h
    split_ifs at h with hempty
    rw [not_or] at hempty
    obtain ⟨lead, before, hlead, hbefore, hksplit⟩ := Text.exists_trim k
    obtain ⟨after, trail, hafter, htrail, hvsplit⟩ := Text.exists_trim v
    refine ⟨_, _, isPart_trim hempty.1 hk, isPart_trim hempty.2 hv, lead, before, after, trail,
      hlead, hbefore, hafter, htrail, ?_⟩
    rw [String.toList_ofList, String.toList_ofList, ← hksplit, ← hvsplit, hraw]
  · rw [parse_of_count hcount] at h
    cases h

/-- A text is read exactly if it is a tag, and as what its key and its value mean. -/
theorem parse_eq_ok_iff {raw : String} {d : Directive} :
    parse raw = .ok d ↔ ∃ key value, Holds raw key value ∧ Directive.Means key value d := by
  constructor
  · intro h
    obtain ⟨key, value, hholds⟩ := exists_holds h
    rw [hholds.parse_eq] at h
    exact ⟨key, value, hholds, Directive.ofKey_eq_iff.1 (Except.ok.inj h)⟩
  · rintro ⟨key, value, hholds, hd⟩
    rw [hholds.parse_eq, Directive.ofKey_eq_iff.2 hd]

/-- A text is refused exactly if it has no colon, or several, or nothing but blanks on one side
of it. -/
theorem parse_eq_error_iff {raw : String} {e : MalformedTag} :
    parse raw = .error e ↔ e = ⟨raw⟩ ∧ (raw.toList.count ':' ≠ 1 ∨
      ∃ k v, raw.toList = k ++ ':' :: v ∧ (trim k = [] ∨ trim v = [])) := by
  by_cases hcount : raw.toList.count ':' = 1
  · obtain ⟨k, v, hraw, hk, hv⟩ := exists_sides hcount
    have hsides : (∃ k v, raw.toList = k ++ ':' :: v ∧ (trim k = [] ∨ trim v = [])) ↔
        trim k = [] ∨ trim v = [] := by
      refine ⟨?_, fun h => ⟨k, v, hraw, h⟩⟩
      rintro ⟨k', v', hraw', h⟩
      obtain ⟨rfl, -, rfl⟩ := (List.append_cons_inj_of_notMem hk hv).1 (hraw.symm.trans hraw')
      exact h
    rw [parse_of_sides hraw hk hv, hsides]
    split_ifs with hempty
    · simp only [Except.error.injEq, hempty, or_true, and_true]
      exact eq_comm
    · simp only [hcount, ne_eq, not_true_eq_false, hempty, or_self, and_false]
  · rw [parse_of_count hcount]
    simp only [Except.error.injEq, ne_eq, hcount, not_false_eq_true, true_or, and_true]
    exact eq_comm

/-! ## Applying -/

/-- What a text among tags comes to, the stage does; what it holds is kept. -/
theorem applyAll_cons {st : Stage ω} (hst : st.Obliges) (raw : String)
    (tags : List String) (w : ω) : ∃ deed, ComesTo raw deed ∧
      applyAll st (raw :: tags) w = ((applyAll st tags (deed.on st w)).1,
        (parse raw).toOption.toList ++ (applyAll st tags (deed.on st w)).2) := by
  cases h : parse raw with
  | error e =>
    refine ⟨_, .malformed h, ?_⟩
    obtain ⟨rfl, -⟩ := parse_eq_error_iff.1 h
    rw [applyAll, h]
    rfl
  | ok d =>
    obtain ⟨key, value, rfl⟩ | ⟨c, hc⟩ := d.unknown_or_asks
    · refine ⟨_, .unknown h, ?_⟩
      rw [applyAll, h]
      rfl
    · refine ⟨_, .call h hc, ?_⟩
      have happly : d.apply st w = ((st.perform c w).1, none) := by
        rw [hc.apply_eq, ← hst hc w]
      rw [applyAll, h]
      simp only [happly]
      rfl

/-- The tags of a line are carried out one after another. -/
theorem exists_deeds {st : Stage ω} (hst : st.Obliges) (tags : List String) (w : ω) :
    ∃ deeds, List.Forall₂ ComesTo tags deeds ∧ applyAll st tags w =
      ((deeds.foldl (fun w deed => deed.on st w) w, none),
        tags.filterMap fun raw => (parse raw).toOption) := by
  induction tags generalizing w with
  | nil => exact ⟨[], .nil, rfl⟩
  | cons raw tags ih =>
    obtain ⟨deed, hdeed, hcons⟩ := applyAll_cons hst raw tags w
    obtain ⟨deeds, hdeeds, hrest⟩ := ih (deed.on st w)
    refine ⟨deed :: deeds, .cons hdeed hdeeds, ?_⟩
    rw [hcons, hrest, List.filterMap_cons]
    cases parse raw <;> rfl

/-- A directive that is unknown is not read back if its key is known. -/
theorem unknown_speaker_is_not_read_back : ¬∀ raw key value, Holds raw key value →
    parse raw = .ok (.unknown key value) := by
  intro h
  have hnone : Blank [] := List.forall_mem_nil _
  have hholds : Holds "speaker: Bob" "speaker" "Bob" :=
    ⟨⟨by decide, by decide, by decide⟩, ⟨by decide, by decide, by decide⟩,
      [], [], [' '], [], hnone, hnone, List.forall_mem_singleton.2 rfl, hnone, by decide⟩
  have hread := h _ _ _ hholds
  rw [hholds.parse_eq] at hread
  cases hread

/-- A text is refused exactly if it has no colon, or several, or nothing but blanks on one side of
it. Any other text has a key and a value with a colon between them and blanks around both, and is
read as what the two mean, so that what is written in whatever layout is read back.

The tags of a line come to one thing each, in order: a directive to its call, a key that is not
known and a text that is refused to a report. Nothing else is done, and what could be read is
kept. -/
theorem tags_are_read_and_applied {st : Stage ω} (hst : st.Obliges) :
    (∀ raw e, parse raw = .error e ↔ e = ⟨raw⟩ ∧ (raw.toList.count ':' ≠ 1 ∨
      ∃ k v, raw.toList = k ++ ':' :: v ∧ (trim k = [] ∨ trim v = []))) ∧
    (∀ raw d, parse raw = .ok d ↔
      ∃ key value, Holds raw key value ∧ Directive.Means key value d) ∧
    ∀ tags w, ∃ deeds, List.Forall₂ ComesTo tags deeds ∧ applyAll st tags w =
      ((deeds.foldl (fun w deed => deed.on st w) w, none),
        tags.filterMap fun raw => (parse raw).toOption) :=
  ⟨fun _ _ => parse_eq_error_iff, fun _ _ => parse_eq_ok_iff, exists_deeds hst⟩

/-- Of four texts two come to calls; the one whose key is not known is kept with them, and the
one without a colon is not. -/
theorem tags_of_a_greeting :
    let st := Stage.recording (.count 3)
    let tags := ["speaker : NONE", "wave", " mood:sad", "expression:Aria_sad_2"]
    let written : Transcript :=
      { calls := [.name " ", .expression "Aria" "Aria_sad_2"]
        log := [Log.warning "Tag could not be parsed: 'wave'",
          Log.info "Tag was parsed but cannot be interpreted. Tag key: mood"] }
    st.Obliges ∧ ∃ deeds, List.Forall₂ ComesTo tags deeds ∧
      deeds.foldl (fun w deed => deed.on st w) {} = written ∧
      tags.filterMap (fun raw => (parse raw).toOption) =
        [.speaker "NONE", .unknown "mood" "sad", .expression "Aria" "Aria_sad_2"] := by
  intro st tags written
  have hst : st.Obliges := fun _ _ _ _ => rfl
  obtain ⟨deeds, hdeeds, happlied⟩ := (tags_are_read_and_applied hst).2.2 tags {}
  have hwritten : (applyAll st tags {}).1 = (written, none) := by decide
  rw [happlied] at hwritten
  exact ⟨hst, deeds, hdeeds, congrArg Prod.fst hwritten, by decide⟩

end Tag
end VisualNovel
