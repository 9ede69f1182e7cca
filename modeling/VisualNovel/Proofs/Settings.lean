import VisualNovel.Proofs.Files.Reading
import VisualNovel.Proofs.Json.Names
import VisualNovel.Settings
/-!
# Settings that are read

A settings file is read over the defaults. A member of its object takes the place of the setting
with its name, a path as seen from the folder of the file, and every other setting keeps its default
(`overridden`). As no two members have one name, their order makes no difference.

What is no object leaves the defaults, with a report, and so does a path under which nothing is
found. But not everything that cannot be used does: a name that is too long breaks off the reading,
and so do a directory, bytes that are no text, a JSON text that cannot be taken in, and a path that
is no text (`Breaks`).

Results:
* `override_error_iff`, `override_ok`: how the members of an object are taken in.
* `settings_are_read`: what is made of whatever is under a path.
-/
namespace VisualNovel
open Files

theorem Setting.ofName?_eq_some {name : String} {s : Setting} :
    Setting.ofName? name = some s ↔ name = s.name := by
  constructor
  · intro h
    have hname := List.find?_some h
    exact (of_decide_eq_true hname).symm
  · rintro rfl
    cases s <;> rfl

namespace Settings

/-! ## Members that override settings -/

/-- The value that a member gives to a setting: a path is seen from the folder of the file. -/
def given (folder : Files.Path) (s : Setting) : Json → Json
  | .str t => if s.isPath then .str (folder.join (.ofString t)).toString else .str t
  | value => value

/-- Settings where members of an object take the place of the settings with their names. -/
def overridden (folder : Files.Path) (members : List (String × Json)) (settings : Settings) :
    Settings :=
  fun s => (members.lookup s.name).elim (settings s) (given folder s)

/-- A member that has the name of a path and is no text. -/
def IsMisplaced (member : String × Json) : Prop :=
  ∃ s, Setting.ofName? member.1 = some s ∧ s.isPath = true ∧ member.2.str? = none

/-- The reports on names that are none of a setting. -/
def unknownNames (path : Files.Path) (members : List (String × Json)) : List Log.Entry :=
  (members.filter fun m => (Setting.ofName? m.1).isNone).map fun m =>
    Log.warning ("Unknown config key '" ++ m.1 ++ "' in " ++ path.toString)

section
variable {settings settings' : Settings} {path : Files.Path} {members : List (String × Json)}

theorem valueIn_eq (folder : Files.Path) (s : Setting) (value : Json) :
    valueIn folder s value =
      if s.isPath = true ∧ value.str? = none then .error .kind else .ok (given folder s value) := by
  cases hs : s.isPath <;> cases value <;>
    simp [valueIn, given, Json.asText, Json.str?, Except.map, hs]

/-- The settings are not read if and only if a path among them is no text. -/
theorem override_error_iff {e : Fault} : (override path members settings).1 = .error e ↔
    e = .misfit .kind ∧ ∃ m ∈ members, IsMisplaced m := by
  induction members generalizing settings with
  | nil => simp [override]
  | cons m members ih =>
    obtain ⟨name, value⟩ := m
    simp only [List.mem_cons, exists_eq_or_imp]
    rw [override]
    cases hname : Setting.ofName? name with
    | none => simp [ih, IsMisplaced, hname]
    | some s =>
      have hhead : IsMisplaced (name, value) ↔ s.isPath = true ∧ value.str? = none := by
        simp [IsMisplaced, hname]
      dsimp only
      rw [valueIn_eq, hhead]
      by_cases hplace : s.isPath = true ∧ value.str? = none
      · simp [hplace, eq_comm]
      · simp only [hplace, if_false, ih, false_or]

/-- Settings that are read are what the members say, and each unknown name is reported. -/
theorem override_ok (hnames : (Assoc.keys members).Nodup)
    (h : (override path members settings).1 = .ok settings') :
    settings' = overridden path.parent members settings ∧
      (override path members settings).2 = unknownNames path members := by
  induction members generalizing settings with
  | nil =>
    cases h
    exact ⟨rfl, rfl⟩
  | cons m members ih =>
    obtain ⟨name, value⟩ := m
    obtain ⟨hnew, hnames⟩ := List.nodup_cons.1 hnames
    rw [override] at h ⊢
    cases hname : Setting.ofName? name with
    | none =>
      rw [hname] at h
      obtain ⟨hsettings, hlog⟩ := ih hnames h
      have hne (s : Setting) : s.name ≠ name := by
        intro heq
        rw [← heq, Setting.ofName?_eq_some.2 rfl] at hname
        cases hname
      constructor
      · rw [hsettings]
        funext s
        simp [overridden, Assoc.lookup_cons, hne s]
      · simp [unknownNames, hname, hlog]
    | some s =>
      have hs := Setting.ofName?_eq_some.1 hname
      simp only [hname, valueIn_eq] at h ⊢
      by_cases hplace : s.isPath = true ∧ value.str? = none
      · simp only [if_pos hplace] at h
        cases h
      · simp only [if_neg hplace] at h ⊢
        obtain ⟨hsettings, hlog⟩ := ih hnames h
        refine ⟨?_, by simpa [unknownNames, hname] using hlog⟩
        rw [hsettings]
        funext t
        by_cases ht : t = s
        · -- no later member has the name, so the value stays
          have hnone : members.lookup name = none := by
            refine List.lookup_eq_none_iff.2 ?_
            intro m hm
            have hm' : m.1 ∈ Assoc.keys members := List.mem_map_of_mem hm
            exact bne_iff_ne.2 fun heq => hnew (heq ▸ hm')
          subst ht
          simp [overridden, set, hs ▸ hnone, hs]
        · have hne : t.name ≠ s.name := by
            intro heq
            have hts := Setting.ofName?_eq_some.2 heq
            rw [Setting.ofName?_eq_some.2 rfl] at hts
            exact ht (Option.some.inj hts)
          simp [overridden, set, Assoc.lookup_cons, hs, hne, ht]

end

/-! ## Files -/

/-- Why the reading of what is under a path breaks off. -/
inductive Breaks (disk : Disk) (path : Files.Path) : Fault → Prop
  /-- A name on the way, or the path, is too long. -/
  | long (h : disk.find path = .error .nameTooLong) : Breaks disk path (.file .nameTooLong)
  | directory (h : disk.find path = .ok .directory) : Breaks disk path (.file .isDirectory)
  /-- The bytes are no text. -/
  | bytes {data : ByteArray} (h : disk.find path = .ok (.bytes data))
      (hdata : String.fromUTF8? data = none) : Breaks disk path (.file .notText)
  /-- Up to something that cannot be taken in, the text is one of JSON. -/
  | text {text : String} {e : Misfit} (h : disk.readText path = .ok text)
      (htext : Json.parse text = .error (.misfit e)) : Breaks disk path (.misfit e)
  /-- A path in the object is no text. -/
  | value {text : String} {members : List (String × Json)} {m : String × Json}
      (h : disk.readText path = .ok text) (htext : Json.parse text = .ok (.obj members))
      (hm : m ∈ members) (hplace : IsMisplaced m) : Breaks disk path (.misfit .kind)

/-- What comes of whatever is under a path. -/
structure Comes (defaults : Settings) (disk : Disk) (path : Files.Path)
    (r : Except Fault Settings × List Log.Entry) : Prop where
  /-- Settings come of it, unless the reading breaks off. -/
  breaks : ∀ e, r.1 = .error e ↔ Breaks disk path e
  /-- They are the defaults where nothing is found, … -/
  missing : ∀ e, disk.find path = .error e → e ≠ .nameTooLong → r =
    (.ok defaults, [Log.warning ("Config file not found: " ++ path.toString ++ "; using defaults")])
  /-- … where the text is none of JSON, … -/
  malformed : ∀ text, disk.readText path = .ok text → Json.parse text = .error .notJson → r =
    (.ok defaults, [Log.error
      ("Invalid config file " ++ path.toString ++ ": JSONDecodeError; using defaults")])
  /-- … and where it holds no object. -/
  other : ∀ text value, disk.readText path = .ok text → Json.parse text = .ok value →
    (∀ members, value ≠ .obj members) → r =
      (.ok defaults, [Log.error
        ("Config file " ++ path.toString ++ " must contain an object; using defaults")])
  /-- The members of an object override them, and each unknown name is reported. -/
  object : ∀ text members, disk.readText path = .ok text →
    Json.parse text = .ok (.obj members) → (∀ m ∈ members, ¬IsMisplaced m) → r =
      (.ok (overridden path.parent members defaults), unknownNames path members)

section
variable {defaults : Settings} {disk : Disk} {path : Files.Path} {text : String}

/-- A text breaks off the reading if it cannot be taken in, or if a path in it is no text. -/
theorem ofText_error_iff {e : Fault} : (ofText defaults path text).1 = .error e ↔
    (∃ m, Json.parse text = .error (.misfit m) ∧ e = .misfit m) ∨
      ∃ members, Json.parse text = .ok (.obj members) ∧ e = .misfit .kind ∧
        ∃ m ∈ members, IsMisplaced m := by
  unfold ofText
  split
  · next m hparse => simp [hparse, eq_comm]
  · next hparse => simp [hparse]
  · next members hparse => simp [hparse, override_error_iff]
  · next value hvalue hparse =>
    have hno (members : List (String × Json)) : value ≠ .obj members := by
      rintro rfl
      exact hvalue members rfl
    simp [hparse, hno]

theorem ofText_object {members : List (String × Json)}
    (hparse : Json.parse text = .ok (.obj members)) (hplaces : ∀ m ∈ members, ¬IsMisplaced m) :
    ofText defaults path text =
      (.ok (overridden path.parent members defaults), unknownNames path members) := by
  have hread : ofText defaults path text = override path members defaults := by
    simp [ofText, hparse]
  rw [hread]
  cases hresult : (override path members defaults).1 with
  | error e =>
    obtain ⟨-, m, hm, hplace⟩ := override_error_iff.1 hresult
    exact absurd hplace (hplaces m hm)
  | ok settings =>
    obtain ⟨hsettings, hlog⟩ := override_ok (Json.nodup_of_parse hparse) hresult
    rw [← hsettings, ← hlog, ← hresult]

/-- What comes of a text. -/
theorem comes_of_text (h : disk.readText path = .ok text) :
    Comes defaults disk path (load defaults disk path) := by
  obtain ⟨data, hfind, hdecode⟩ := Disk.readText_eq_ok_iff.1 h
  have hload : load defaults disk path = ofText defaults path text := by
    simp [load, Disk.exists_, hfind, h]
  have hsame {text' : String} (h' : disk.readText path = .ok text') : text' = text :=
    (Except.ok.inj (h.symm.trans h')).symm
  rw [hload]
  refine ⟨fun e => ofText_error_iff.trans ⟨?_, ?_⟩, fun e he => ?_, fun text' h' hparse => ?_,
    fun text' value h' hparse hvalue => ?_, fun text' members h' hparse hplaces => ?_⟩
  · rintro (⟨m, hparse, rfl⟩ | ⟨members, hparse, rfl, m, hm, hplace⟩)
    · exact .text h hparse
    · exact .value h hparse hm hplace
  · intro he
    cases he with
    | long h' => rw [hfind] at h'; cases h'
    | directory h' => rw [hfind] at h'; cases h'
    | bytes h' hdata =>
      rw [Disk.readText_of_bytes h', Disk.decode_eq_error_iff.2 ⟨hdata, rfl⟩] at h
      cases h
    | text h' hparse =>
      rw [hsame h'] at hparse
      exact .inl ⟨_, hparse, rfl⟩
    | value h' hparse hm hplace =>
      rw [hsame h'] at hparse
      exact .inr ⟨_, hparse, rfl, _, hm, hplace⟩
  · rw [hfind] at he
    cases he
  · rw [hsame h'] at hparse
    simp [ofText, hparse]
  · rw [hsame h'] at hparse
    cases value with
    | obj members => exact absurd rfl (hvalue members)
    | _ => simp [ofText, hparse]
  · rw [hsame h'] at hparse
    exact ofText_object hparse hplaces

theorem load_of_missing {e : FileError} (h : disk.find path = .error e) (he : e ≠ .nameTooLong) :
    load defaults disk path = (.ok defaults, [Log.warning
      ("Config file not found: " ++ path.toString ++ "; using defaults")]) := by
  cases e <;> simp_all [load, Disk.exists_]

theorem load_of_long (h : disk.find path = .error .nameTooLong) :
    load defaults disk path = (.error (.file .nameTooLong), []) := by
  simp [load, Disk.exists_, h]

theorem load_of_found {content : Content} {e : FileError} (h : disk.find path = .ok content)
    (h' : disk.readText path = .error e) : load defaults disk path = (.error (.file e), []) := by
  simp [load, Disk.exists_, h, h']

/-- What comes of anything else. -/
theorem comes_of_other (h : ∀ text, disk.readText path ≠ .ok text) :
    Comes defaults disk path (load defaults disk path) := by
  have hreason {data : ByteArray} (hfind : disk.find path = .ok (.bytes data)) :
      String.fromUTF8? data = none := by
    cases hdata : String.fromUTF8? data with
    | none => rfl
    | some s =>
      refine absurd (Disk.readText_of_bytes hfind) ?_
      simp [Disk.decode, hdata, h]
  refine ⟨fun e => ⟨fun he => ?_, fun he => ?_⟩, fun e he hlong => load_of_missing he hlong,
    fun text h' => absurd h' (h text), fun text value h' => absurd h' (h text),
    fun text members h' => absurd h' (h text)⟩
  · cases hfind : disk.find path with
    | error e' =>
      by_cases hlong : e' = .nameTooLong
      · subst hlong
        rw [load_of_long hfind] at he
        cases he
        exact .long hfind
      · rw [load_of_missing hfind hlong] at he
        cases he
    | ok content =>
      cases content with
      | directory =>
        rw [load_of_found hfind (Disk.readText_of_directory hfind)] at he
        cases he
        exact .directory hfind
      | bytes data =>
        have hdata := hreason hfind
        rw [load_of_found hfind
          (Disk.readText_eq_error_iff.2 (.inr (.inr ⟨data, hfind, hdata, rfl⟩)))] at he
        cases he
        exact .bytes hfind hdata
  · cases he with
    | long hfind => rw [load_of_long hfind]
    | directory hfind => rw [load_of_found hfind (Disk.readText_of_directory hfind)]
    | bytes hfind hdata =>
      rw [load_of_found hfind
        (Disk.readText_eq_error_iff.2 (.inr (.inr ⟨_, hfind, hdata, rfl⟩)))]
    | text h' => exact absurd h' (h _)
    | value h' => exact absurd h' (h _)

/-- **Settings are read.** Whatever is under a path, the defaults come of it, or what an object
makes of them, unless the reading breaks off; and it breaks off for the reasons in `Breaks` and for
no other. -/
theorem settings_are_read (defaults : Settings) (disk : Disk) (path : Files.Path) :
    Comes defaults disk path (load defaults disk path) := by
  by_cases h : ∃ text, disk.readText path = .ok text
  · obtain ⟨text, h⟩ := h
    exact comes_of_text h
  · exact comes_of_other fun text htext => h ⟨text, htext⟩

/-- A directory leaves no settings at all. -/
example : (load (default ⟨.here, []⟩) [⟨.ofString "novel", .directory⟩] (.ofString "novel")).1 =
    .error (.file .isDirectory) := by
  rfl

end
end Settings
end VisualNovel
