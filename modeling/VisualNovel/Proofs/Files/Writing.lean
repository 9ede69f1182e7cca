import VisualNovel.Files.Disk
/-!
# Files that are written and read back

Where a file can be written, the bytes that were written are read under the same path
(`read_write`). What is written never hides a directory that its path leads through: the place the
path leads to was a file, or nothing (`checkWrite_cases`). So the way to that place leads through
the same directories as before, and at its end there is the new file. A text without carriage
returns is read as it was written (`readText_write`).
-/
namespace VisualNovel.Files.Disk

/-! ## Places -/

theorem along_up {root : Root} {place names : List String} {name : String}
    (hup : isStepUp name = true) :
    root.along place (name :: names) = root.along (root.above place) names := by
  rw [Root.along, if_pos hup]

theorem along_down {root : Root} {place names : List String} {name : String}
    (hup : isStepUp name = false) :
    root.along place (name :: names) = root.along (place ++ [name]) names := by
  rw [Root.along, if_neg (by simp [hup])]

theorem along_append (root : Root) (place names rest : List String) :
    root.along place (names ++ rest) = root.along (root.along place names) rest := by
  induction names generalizing place with
  | nil => rfl
  | cons name names ih =>
    rw [List.cons_append, Root.along, Root.along]
    exact ih _

theorem along_last (root : Root) (place names : List String) {last : String}
    (hlast : isStepUp last = false) :
    root.along place (names ++ [last]) = root.along place names ++ [last] := by
  rw [along_append, along_down hlast, Root.along]

/-! ## Ways -/

/-- Names lead from a place to what stands where they end. -/
inductive Leads (disk : Disk) (root : Root) : List String → List String → Content → Prop
  | here {place c} (h : disk.content? ⟨root, place⟩ = some c) : Leads disk root place [] c
  | up {place name names c} (hup : isStepUp name = true)
      (h : Leads disk root (root.above place) names c) : Leads disk root place (name :: names) c
  | down {place name names c} (hup : isStepUp name = false) (hshort : isTooLong name = false)
      (hentry : disk.content? ⟨root, place ++ [name]⟩ = some .directory)
      (h : Leads disk root (place ++ [name]) names c) : Leads disk root place (name :: names) c
  | file {place name data} (hup : isStepUp name = false) (hshort : isTooLong name = false)
      (hentry : disk.content? ⟨root, place ++ [name]⟩ = some (.bytes data)) :
      Leads disk root place [name] (.bytes data)

section
variable {disk disk' : Disk} {root : Root} {place names : List String} {c : Content}

/-- A walk finds what the names lead to. -/
theorem walk_eq_ok_iff : disk.walk root place names = .ok c ↔ Leads disk root place names c := by
  constructor
  · intro h
    induction names generalizing place with
    | nil =>
      rw [walk] at h
      cases hentry : disk.content? ⟨root, place⟩ with
      | none => simp [hentry] at h
      | some found =>
        rw [hentry] at h
        cases h
        exact .here hentry
    | cons name names ih =>
      rw [walk] at h
      cases hup : isStepUp name with
      | true => exact .up hup (ih (by simpa [hup] using h))
      | false =>
        cases hlong : isTooLong name with
        | true => simp [hup, hlong] at h
        | false =>
          simp only [hup, hlong, Bool.false_eq_true, if_false] at h
          split at h
          · cases h
          · next hentry => exact .down hup hlong hentry (ih h)
          · next data hentry =>
            cases names with
            | nil =>
              cases h
              exact .file hup hlong hentry
            | cons name' names => cases h
  · intro h
    induction h with
    | here h => simp [walk, h]
    | up hup _ ih => simp [walk, hup, ih]
    | down hup hshort hentry _ ih => simp [walk, hup, hshort, hentry, ih]
    | file hup hshort hentry => simp [walk, hup, hshort, hentry]

namespace Leads

/-- What names lead to stands at the place they lead to. -/
theorem content? (h : Leads disk root place names c) :
    disk.content? ⟨root, root.along place names⟩ = some c := by
  induction h with
  | here h => exact h
  | up hup _ ih => rwa [along_up hup]
  | down hup _ _ _ ih => rwa [along_down hup]
  | file hup _ hentry => rwa [along_down hup]

/-- From a directory the walk goes on. -/
theorem walk_append (h : Leads disk root place names .directory) (rest : List String) :
    disk.walk root place (names ++ rest) = disk.walk root (root.along place names) rest := by
  generalize hc : Content.directory = c at h
  induction h with
  | here => rfl
  | up hup _ ih =>
    rw [List.cons_append, walk, if_pos hup, along_up hup]
    exact ih hc
  | down hup hshort hentry _ ih =>
    rw [along_down hup, ← ih hc]
    simp [walk, hup, hshort, hentry]
  | file => cases hc

/-- A way stays if the directories do, up to what stands at its end. -/
theorem changes (h : Leads disk root place names c)
    (hstay : ∀ q, disk.content? q = some .directory → disk'.content? q = some .directory)
    {c' : Content} (hkind : c = .directory ↔ c' = .directory)
    (hend : disk'.content? ⟨root, root.along place names⟩ = some c') :
    Leads disk' root place names c' := by
  induction h with
  | here => exact .here hend
  | up hup _ ih =>
    rw [along_up hup] at hend
    exact .up hup (ih hkind hend)
  | down hup hshort hentry _ ih =>
    rw [along_down hup] at hend
    exact .down hup hshort (hstay _ hentry) (ih hkind hend)
  | file hup hshort =>
    rw [along_down hup] at hend
    cases c' with
    | bytes data => exact .file hup hshort hend
    | directory => cases hkind.2 rfl

end Leads

theorem content?_of_leads (h : place.all isStepUp = true ∨
    ∃ e ∈ disk, e.path.root = root ∧ place <+: e.path.names) :
    disk.content? ⟨root, place⟩ ≠ none := by
  unfold Disk.content?
  split
  · exact Option.some_ne_none _
  · have hleads : (place.all isStepUp || disk.any fun e =>
        e.path.root = root && place.isPrefixOf e.path.names) = true := by
      simpa using h
    rw [if_pos hleads]
    exact Option.some_ne_none _

theorem leads_of_content? (h : disk.content? ⟨root, place⟩ ≠ none) :
    place.all isStepUp = true ∨ ∃ e ∈ disk, e.path.root = root ∧ place <+: e.path.names := by
  unfold Disk.content? at h
  split at h
  · next e hfind =>
    have hpath : e.path = ⟨root, place⟩ := by simpa using List.find?_some hfind
    have hnames : place <+: e.path.names := by simp [hpath]
    exact .inr ⟨e, List.mem_of_find?_eq_some hfind, by rw [hpath], hnames⟩
  · simp only [ne_eq, ite_eq_right_iff, reduceCtorEq, imp_false, Decidable.not_not] at h
    simpa using h

/-- Above a place where there is something there is something. -/
theorem content?_above (h : disk.content? ⟨root, place⟩ ≠ none) :
    disk.content? ⟨root, root.above place⟩ ≠ none := by
  apply content?_of_leads
  rw [Root.above]
  cases hups : place.all isStepUp with
  | true =>
    left
    by_cases hroot : root = .here
    · simp [hroot, isStepUp, hups]
    · simp [hroot]
  | false =>
    obtain ⟨e, he, hroot, hprefix⟩ := (leads_of_content? h).resolve_left (by simp [hups])
    rw [if_neg Bool.false_ne_true]
    exact .inr ⟨e, he, hroot, (List.dropLast_prefix place).trans hprefix⟩

end

/-! ## Writing -/

variable {disk : Disk} {p : Path} {data : ByteArray}

theorem content?_write_place : (disk.write p data).content? p.place = some (.bytes data) := by
  simp [Disk.content?, Disk.write]

/-- A directory stays, unless it is the place that is written. -/
theorem content?_write_directory (hplace : disk.content? p.place ≠ some .directory) {q : Path}
    (h : disk.content? q = some .directory) :
    (disk.write p data).content? q = some .directory := by
  have hne : p.place ≠ q := by
    rintro rfl
    exact hplace h
  unfold Disk.content? at h ⊢
  rw [Disk.write, List.find?_cons_of_neg (by simpa using hne)]
  split at h
  · exact h
  · rw [Option.ite_none_right_eq_some, Bool.or_eq_true] at h
    obtain ⟨hleads, -⟩ := h
    apply if_pos
    rw [List.any_cons, Bool.or_eq_true, Bool.or_eq_true]
    exact hleads.imp_right .inr

theorem find_ok {c : Content} (h : disk.find p = .ok c) :
    check p.toString = .ok () ∧ Leads disk p.root [] p.names c := by
  unfold find at h
  cases hcheck : check p.toString with
  | error e => simp [hcheck, bind, Except.bind] at h
  | ok u =>
    rw [hcheck] at h
    exact ⟨rfl, walk_eq_ok_iff.1 h⟩

/-- No path is refused because there is nothing under it. -/
theorem find_notFound (h : disk.find p = .error .notFound) :
    check p.toString = .ok () ∧ disk.walk p.root [] p.names = .error .notFound := by
  unfold find at h
  cases hcheck : check p.toString with
  | error e =>
    have hne : e ≠ .notFound := by
      rintro rfl
      unfold check at hcheck
      split at hcheck
      · cases hcheck
      split at hcheck
      · cases hcheck
      split at hcheck <;> cases hcheck
    simp [hcheck, bind, Except.bind, hne] at h
  | ok u =>
    rw [hcheck] at h
    exact ⟨rfl, h⟩

/-- What is not found in a directory has no entry there, but might have one. -/
theorem absent_of_walk {root : Root} {place : List String} {last : String}
    (hplace : disk.content? ⟨root, place⟩ ≠ none)
    (h : disk.walk root place [last] = .error .notFound) :
    isStepUp last = false ∧ isTooLong last = false ∧
      disk.content? ⟨root, place ++ [last]⟩ = none := by
  rw [walk] at h
  cases hup : isStepUp last with
  | true =>
    rw [hup, if_pos rfl, walk] at h
    obtain ⟨c, hc⟩ := Option.ne_none_iff_exists'.1 (content?_above hplace)
    simp [hc] at h
  | false =>
    cases hlong : isTooLong last with
    | true => simp [hup, hlong] at h
    | false =>
      cases hentry : disk.content? ⟨root, place ++ [last]⟩ with
      | none => exact ⟨rfl, rfl, rfl⟩
      | some c => cases c <;> simp [hup, hlong, hentry, walk] at h

/-- Where a file can be written there is one, or a directory that has no entry of its name. -/
theorem checkWrite_cases (h : disk.checkWrite p = .ok ()) :
    check p.toString = .ok () ∧
      ((∃ old, Leads disk p.root [] p.names (.bytes old)) ∨
        ∃ names last, p.names = names ++ [last] ∧ isStepUp last = false ∧ isTooLong last = false ∧
          Leads disk p.root [] names .directory ∧ disk.content? p.place = none) := by
  unfold checkWrite at h
  split at h
  · next old hfind =>
    obtain ⟨hcheck, hleads⟩ := find_ok hfind
    exact ⟨hcheck, .inl ⟨old, hleads⟩⟩
  · cases h
  · next hfind =>
    split at h
    · next hparent =>
      obtain ⟨hcheck, hwalk⟩ := find_notFound hfind
      obtain ⟨-, hleads⟩ := find_ok hparent
      refine ⟨hcheck, .inr ?_⟩
      rcases List.eq_nil_or_concat p.names with hnil | ⟨names, last, hnames⟩
      · have hsame : p.parent.names = p.names := by rw [Path.parent, hnil]; rfl
        rw [hsame, ← walk_eq_ok_iff] at hleads
        cases hwalk.symm.trans hleads
      · rw [List.concat_eq_append] at hnames
        have hdir : Leads disk p.root [] names .directory := by
          simpa [Path.parent, hnames] using hleads
        rw [hnames, hdir.walk_append] at hwalk
        obtain ⟨hup, hshort, hnone⟩ := absent_of_walk (by rw [hdir.content?]; nofun) hwalk
        refine ⟨names, last, hnames, hup, hshort, hdir, ?_⟩
        rw [Path.place, hnames, along_last _ _ _ hup, hnone]
    · cases h
    · cases h
  · cases h

/-- **What is written is read back.** -/
theorem read_write (h : disk.checkWrite p = .ok ()) (data : ByteArray) :
    (disk.write p data).read p = .ok data := by
  obtain ⟨hcheck, hcases⟩ := checkWrite_cases h
  have hleads : Leads (disk.write p data) p.root [] p.names (.bytes data) := by
    rcases hcases with ⟨old, hold⟩ | ⟨names, last, hnames, hup, hshort, hdir, hnone⟩
    · have hplace : disk.content? p.place ≠ some .directory := by
        rw [show disk.content? p.place = some (.bytes old) from hold.content?]
        nofun
      exact hold.changes (fun q => content?_write_directory hplace) (by simp) content?_write_place
    · have hplace : disk.content? p.place ≠ some .directory := by
        rw [hnone]
        nofun
      have hdir' : Leads (disk.write p data) p.root [] names .directory :=
        hdir.changes (fun q => content?_write_directory hplace) Iff.rfl
          (content?_write_directory hplace hdir.content?)
      have hnew : (disk.write p data).content? ⟨p.root, p.root.along [] names ++ [last]⟩ =
          some (.bytes data) := by
        rw [← along_last _ _ _ hup, ← hnames]
        exact content?_write_place
      rw [hnames, ← walk_eq_ok_iff, hdir'.walk_append, walk_eq_ok_iff]
      exact .file hup hshort hnew
  rw [read, find, hcheck]
  simp only [bind, Except.bind, walk_eq_ok_iff.2 hleads, bytesOf]

/-! ## Texts -/

theorem unifyBreaks_of_noReturn {s : List Char} (h : '\r' ∉ s) : unifyBreaks s = s := by
  induction s with
  | nil => rfl
  | cons c s ih =>
    rw [List.mem_cons, not_or] at h
    obtain ⟨hc, hs⟩ := h
    rw [unifyBreaks, ih hs]
    · rintro t rfl
      exact absurd rfl hc
    · rintro rfl
      exact absurd rfl hc

/-- A text without carriage returns is what its bytes are decoded to. -/
theorem decode_toUTF8 {s : String} (h : '\r' ∉ s.toList) : decode s.toUTF8 = .ok s := by
  have hbytes : String.fromUTF8? s.toUTF8 = some s := by
    rw [String.toUTF8_eq_toByteArray, String.fromUTF8?, dif_pos s.isValidUTF8]
    rfl
  rw [decode, hbytes]
  simp only [unifyBreaks_of_noReturn h, String.ofList_toList]

/-- A text that is written is read as it was written. -/
theorem readText_write (h : disk.checkWrite p = .ok ()) {text : String}
    (htext : '\r' ∉ text.toList) : (disk.write p text.toUTF8).readText p = .ok text := by
  rw [readText, read_write h]
  exact decode_toUTF8 htext

end VisualNovel.Files.Disk
