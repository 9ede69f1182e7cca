import VisualNovel.Proofs.Files.Writing
import VisualNovel.Proofs.Json.RoundTrip
import VisualNovel.Story.ScriptFile
/-!
# Two ways from a script to a story

A script file can be loaded as story content, or be compiled into a JSON file that is loaded in its
place. What a story is written as says the story, on one line and indented (`Graph.parse_written`):
none of its texts but its id holds halves, and a half in the name of a file is always a trailing one
(`Path.stands_stem`). So both ways lead to the same story (`two_ways_agree`), and a script that is
not compiled leads to the same fault on both, with nothing written.
-/
namespace VisualNovel

/-- A text that can be written to a file holds trailing halves only. -/
theorem Json.stands_of_isWritable {s : String} (h : Text.isWritable s = true) :
    ∀ c ∈ s.toList, Stands Text.codeOf c := by
  intro c hc
  have hhalf := List.all_eq_true.1 h c hc
  unfold Stands Text.codeOf
  cases hcode : Text.halfCode? c with
  | none => exact .inl rfl
  | some u =>
    rw [hcode] at hhalf
    have hrange : 0xdc80 ≤ u ∧ u ≤ 0xdcff := by simpa using hhalf
    exact .inr ⟨rfl, Nat.le_trans (by decide) hrange.1⟩

/-! ## Stories as JSON -/

namespace Story
open Json

theorem plain_text {levels : Nat} (s : String) : Plain Char.toNat levels (.str s) :=
  .str fun _ _ => .inl rfl

theorem plain_list {α : Type} {levels : Nat} {write : α → Json} {xs : List α}
    (h : ∀ x ∈ xs, Plain Char.toNat levels (write x)) :
    Plain Char.toNat (levels + 1) (.arr (xs.map write)) := by
  refine .arr fun j hj => ?_
  obtain ⟨x, hx, rfl⟩ := List.mem_map.1 hj
  exact h x hx

theorem Line.plain_toJson (levels : Nat) (l : Line) : Plain Char.toNat (levels + 2) l.toJson := by
  refine .obj (by simp [Assoc.keys]) (fun _ _ _ _ => .inl rfl) ?_
  rintro m (_ | ⟨_, _ | ⟨_, ⟨⟩⟩⟩)
  · exact plain_text _
  · exact plain_list fun t _ => plain_text t

theorem Branch.plain_toJson (levels : Nat) (b : Branch) :
    Plain Char.toNat (levels + 1) b.toJson := by
  refine .obj (by simp [Assoc.keys]) (fun _ _ _ _ => .inl rfl) ?_
  rintro m (_ | ⟨_, _ | ⟨_, ⟨⟩⟩⟩)
  · exact plain_text _
  · exact plain_text _

theorem Node.plain_toJson (levels : Nat) (n : Node) : Plain Char.toNat (levels + 4) n.toJson := by
  have hnext : Plain Char.toNat (levels + 3) (n.next.elim .null .str) := by
    cases n.next with
    | none => exact .null
    | some t => exact plain_text t
  refine .obj (by simp [Assoc.keys]) (fun _ _ _ _ => .inl rfl) ?_
  rintro m (_ | ⟨_, _ | ⟨_, _ | ⟨_, _ | ⟨_, ⟨⟩⟩⟩⟩⟩)
  · exact plain_text _
  · exact plain_list fun l _ => l.plain_toJson levels
  · exact plain_list fun b _ => b.plain_toJson (levels + 1)
  · exact hnext

/-- What a story is written as says the story: its id by one code, and the rest by another. -/
theorem Graph.says_written {l : Layout} (hl : l.Neat) {g : Graph}
    (hid : ∀ c ∈ g.id.toList, Stands Text.codeOf c) (levels : Nat) :
    Says (levels + 6) (g.written l).toList g.toJson := by
  have hnodes : Plain Char.toNat (levels + 5) (.arr (g.nodes.map Node.toJson)) :=
    plain_list fun n _ => n.plain_toJson levels
  have hfirst : List.Forall₂ (SaysMember (levels + 5))
      (writeMembers Text.codeOf l 1 [("id", .str g.id)]) [("id", .str g.id)] := by
    apply forall₂_writeMembers
    · rintro m (_ | ⟨_, ⟨⟩⟩)
      exact stands_of_isWritable (s := "id") (by decide +kernel)
    · rintro m (_ | ⟨_, ⟨⟩⟩)
      exact Plain.says_written (.str hid) hl 1
  have hrest : List.Forall₂ (SaysMember (levels + 5))
      (writeMembers Char.toNat l 1
        [("start", .str g.start), ("nodes", .arr (g.nodes.map Node.toJson))])
      [("start", .str g.start), ("nodes", .arr (g.nodes.map Node.toJson))] := by
    apply forall₂_writeMembers (fun _ _ _ _ => .inl rfl)
    rintro m (_ | ⟨_, _ | ⟨_, ⟨⟩⟩⟩)
    · exact (plain_text g.start).says_written hl 1
    · exact hnodes.says_written hl 1
  rw [Graph.written, String.toList_ofList]
  exact says_obj hl 0 (List.rel_append hfirst hrest) (by simp [Assoc.keys])

/-- A story is parsed from what it is written as. -/
theorem Graph.parse_written {l : Layout} (hl : l.Neat) {g : Graph}
    (hid : ∀ c ∈ g.id.toList, Stands Text.codeOf c) : parse (g.written l) = .ok g.toJson := by
  have hparse := parse_said (g.says_written hl hid 979)
  rwa [String.ofList_toList] at hparse

end Story

/-! ## Names of files -/

namespace Files

theorem Path.mem_stem {c : Char} {name : String} (h : c ∈ (splitName name).1.toList) :
    c ∈ name.toList := by
  unfold splitName at h
  dsimp only at h
  split at h
  · next stem hdrop =>
    split at h
    · exact h
    · have hmem : c ∈ name.toList.reverse := by
        apply (List.dropWhile_suffix (· ≠ '.')).mem
        rw [hdrop]
        simpa using Or.inr h
      simpa using hmem
  · exact h

theorem mem_intercalate {α : Type} {x : α} (separator : List α) {part : List α}
    {parts : List (List α)} (hpart : part ∈ parts) (hx : x ∈ part) :
    x ∈ separator.intercalate parts := by
  induction parts with
  | nil => cases hpart
  | cons first parts ih =>
    cases parts with
    | nil =>
      obtain rfl := List.mem_singleton.1 hpart
      simpa using hx
    | cons next parts =>
      rw [List.intercalate_cons_cons, List.append_assoc, List.mem_append, List.mem_append]
      rcases List.mem_cons.1 hpart with rfl | hpart
      · exact .inl hx
      · exact .inr (.inr (ih hpart))

/-- What stands in the last name of a path stands in its text. -/
theorem Path.mem_toString {p : Path} {c : Char} (h : c ∈ p.name.toList) :
    c ∈ p.toString.toList := by
  cases hlast : p.names.getLast? with
  | none => simp [name, hlast] at h
  | some last =>
    have hmem : last.toList ∈ p.names.map String.toList :=
      List.mem_map_of_mem (List.mem_of_mem_getLast? hlast)
    have htail : c ∈ ("/".intercalate p.names).toList := by
      rw [String.toList_intercalate]
      exact mem_intercalate _ hmem (by simpa [name, hlast] using h)
    have hne : p.names.isEmpty = false := by
      cases hnames : p.names with
      | nil => simp [hnames] at hlast
      | cons => rfl
    unfold toString
    cases p.root with
    | here => simpa [hne] using htail
    | top double =>
      rw [String.toList_append]
      exact List.mem_append_right _ htail

/-- The stem of a path that can be a path. -/
theorem Path.stands_stem {p : Path} (h : Disk.check p.toString = .ok ()) :
    ∀ c ∈ p.stem.toList, Json.Stands Text.codeOf c := by
  intro c hc
  apply Json.stands_of_isWritable _ c (mem_toString (mem_stem hc))
  unfold Disk.check at h
  split at h
  · cases h
  · next hwritable => simpa using hwritable

end Files

/-! ## Both ways -/

namespace Story
open Files

variable {disk : Disk} {path : Files.Path} {output : Option Files.Path} {target : Files.Path}
  {log : List Log.Entry}

/-- The id of a story that was compiled from a file is made of characters of its path. -/
theorem stands_id {g : Graph} (h : compileFile disk path = (.ok g, log)) :
    ∀ c ∈ g.id.toList, Json.Stands Text.codeOf c := by
  unfold compileFile at h
  cases htext : disk.readText path with
  | error e => simp [htext] at h
  | ok text =>
    simp only [htext] at h
    cases hresult : (compile text).result with
    | error e => simp [hresult] at h
    | ok g' =>
      simp only [hresult, Prod.mk.injEq, Except.ok.injEq] at h
      obtain ⟨rfl, -⟩ := h
      have hcheck : Disk.check path.toString = .ok () := by
        cases hfind : disk.find path with
        | error e => simp [Disk.readText, Disk.read, hfind, bind, Except.bind] at htext
        | ok c => exact (Disk.find_ok hfind).1
      exact Path.stands_stem hcheck

theorem target_of_name (hname : path.name ≠ "") (output : Option Files.Path) :
    ∃ target, output.or (path.withSuffix? ".json") = some target := by
  cases output with
  | some target => exact ⟨target, rfl⟩
  | none => exact ⟨_, by rw [Option.none_or, Path.withSuffix?, if_neg hname]⟩

/-- A script that gives no story gives none on either way, and nothing is written. -/
theorem ways_of_error (hscript : isJsonFile path = false)
    (htarget : output.or (path.withSuffix? ".json") = some target) {e : SourceError}
    (h : compileFile disk path = (.error e, log)) :
    (loadContent disk path).1 = .error e ∧ (compileTo disk path output).1 = .error e ∧
      diskAfter disk path output = disk := by
  have hto : compileTo disk path output = (.error e, log) := by
    rw [compileTo, htarget, h]
  refine ⟨?_, by rw [hto], by rw [diskAfter, hto]⟩
  rw [loadContent, hscript, h]
  rfl

/-- Where no file can be written, nothing is written. -/
theorem compileTo_refused (htarget : output.or (path.withSuffix? ".json") = some target)
    {g : Graph} (h : compileFile disk path = (.ok g, log)) {e : FileError}
    (hwrite : disk.checkWrite target = .error e) :
    (compileTo disk path output).1 = .error (.file e) ∧ diskAfter disk path output = disk := by
  have hto : compileTo disk path output = (.error (.file e), log) := by
    simp [compileTo, htarget, h, hwrite]
  exact ⟨by rw [hto], by rw [diskAfter, hto]⟩

/-- Else the story is there afterwards, as it was written. -/
theorem compileTo_written (htarget : output.or (path.withSuffix? ".json") = some target)
    {g : Graph} (h : compileFile disk path = (.ok g, log))
    (hwrite : disk.checkWrite target = .ok ()) :
    (compileTo disk path output).1 = .ok (target, g.written .indented) ∧
      (diskAfter disk path output).readText target = .ok (g.written .indented) := by
  have hto : (compileTo disk path output).1 = .ok (target, g.written .indented) := by
    simp [compileTo, htarget, h, hwrite]
  have hsaid := g.says_written Json.Layout.neat_indented (stands_id h) 0
  refine ⟨hto, ?_⟩
  rw [diskAfter, hto]
  exact Disk.readText_write hwrite hsaid.noReturn

/-- **Two ways lead from a script to one story.** A script file whose name has not the suffix of
JSON files is loaded as a text that says its story. If a file can be written at the target,
compiling the script there writes a text that says the same story, and that text is what is read
and, under the suffix of JSON files, what is loaded from there. If the script gives no story, both
ways tell the same fault, and nothing is written. -/
theorem two_ways_agree (disk : Disk) {path : Files.Path} (hscript : isJsonFile path = false)
    (hname : path.name ≠ "") (output : Option Files.Path) :
    ∃ target, output.or (path.withSuffix? ".json") = some target ∧
    match (compileFile disk path).1 with
    | .ok g =>
      (∃ text, (loadContent disk path).1 = .ok text ∧ Json.parse text = .ok g.toJson) ∧
      match disk.checkWrite target with
      | .ok _ => ∃ text, (compileTo disk path output).1 = .ok (target, text) ∧
          Json.parse text = .ok g.toJson ∧
          (diskAfter disk path output).readText target = .ok text ∧
          (isJsonFile target = true →
            loadContent (diskAfter disk path output) target = (.ok text, []))
      | .error e => (compileTo disk path output).1 = .error (.file e) ∧
          diskAfter disk path output = disk
    | .error e => (loadContent disk path).1 = .error e ∧
        (compileTo disk path output).1 = .error e ∧ diskAfter disk path output = disk := by
  obtain ⟨target, htarget⟩ := target_of_name hname output
  refine ⟨target, htarget, ?_⟩
  rcases hcompile : compileFile disk path with ⟨result, log⟩
  cases result with
  | error e => exact ways_of_error hscript htarget hcompile
  | ok g =>
    have hid := stands_id hcompile
    constructor
    · refine ⟨g.written .line, ?_, g.parse_written Json.Layout.neat_line hid⟩
      rw [loadContent, hscript, hcompile]
      rfl
    · cases hwrite : disk.checkWrite target with
      | error e => exact compileTo_refused htarget hcompile hwrite
      | ok u =>
        obtain ⟨hto, hread⟩ := compileTo_written htarget hcompile hwrite
        refine ⟨_, hto, g.parse_written Json.Layout.neat_indented hid, hread, ?_⟩
        intro hjson
        rw [loadContent, if_pos hjson, hread]

/-- A quote and a character above U+FFFF come back from both layouts. -/
theorem hall_leads_both_ways :
    let text := "=== hall\n\"Hi!\" 👋 # char:host\n-> END"
    let path := Path.ofString "story.ink"
    let target := Path.ofString "story.json"
    let disk : Disk := Disk.write [] path text.toUTF8
    let hall : Node := ⟨"hall", [⟨"\"Hi!\" 👋", ["char:host"]⟩], [], some "END"⟩
    let g : Graph := ⟨"story", "hall", [hall]⟩
    ∃ line file, (loadContent disk path).1 = .ok line ∧ Json.parse line = .ok g.toJson ∧
      loadContent (diskAfter disk path none) target = (.ok file, []) ∧
      Json.parse file = .ok g.toJson := by
  intro text path target disk hall g
  have hread : disk.readText path = .ok text :=
    Disk.readText_write (by decide +kernel) (by decide +kernel)
  have hcompiled : (compile text).result = .ok ⟨"compiled", "hall", [hall]⟩ := by decide +kernel
  have hfile : (compileFile disk path).1 = .ok g := by
    rw [compileFile, hread]
    simp only [hcompiled, Except.ok.injEq]
    decide +kernel
  have hscript : isJsonFile path = false := by decide +kernel
  have hwrite : disk.checkWrite target = .ok () := by decide +kernel
  obtain ⟨target', htarget, hways⟩ := two_ways_agree disk hscript (by decide +kernel) none
  obtain rfl : target = target' := by
    have hsuffix : path.withSuffix? ".json" = some target := by decide +kernel
    rw [Option.none_or, hsuffix] at htarget
    exact Option.some.inj htarget
  simp only [hfile, hwrite] at hways
  obtain ⟨⟨line, hline, hparse⟩, file, -, hparse', -, hload⟩ := hways
  exact ⟨line, file, hline, hparse, hload (by decide +kernel), hparse'⟩

end Story
end VisualNovel
