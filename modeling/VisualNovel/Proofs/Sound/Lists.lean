import VisualNovel.Proofs.Files.Reading
import VisualNovel.Proofs.Sound.Orders
/-!
# Sound lists

The entries of a sound list are taken one after the other. One that is no valid cue is reported and
passed over, one whose name is taken is declined, and any other is registered, with its clip as seen
from the folder of the list (`validCues`, `newcomers`). What was registered before stays as it is.

A list that cannot be opened, or is no JSON text, is reported and leaves everything. But the loading
breaks off for a path that can be none, for bytes that are no text, for a JSON text that cannot be
taken in, for a value that holds nothing, and for the first clip that breaks off its own loading
(`Jukebox.ListBreaks`).

Results:
* `loadVoice_error_iff`: why a clip breaks off its loading.
* `registerAll_spec`: how the entries are taken in, by induction over them.
* `sound_lists_are_loaded`: what comes of whatever is under a path.
-/
namespace VisualNovel.Sound.Jukebox
open Files

/-- The valid cues of a list in a folder, with their clips as seen from there. -/
def validCues (folder : Files.Path) (entries : List Json) : List Cue :=
  entries.filterMap fun entry => (Cue.ofJson entry).toOption.map (resolve folder)

/-- Of these cues, the first of each name that is not taken. -/
def newcomers : (taken : List String) → List Cue → List Cue
  | _, [] => []
  | taken, c :: cs =>
    if c.name ∈ taken then newcomers taken cs else c :: newcomers (taken ++ [c.name]) cs

/-- An entry that is no valid cue. -/
def isInvalid (entry : Json) : Bool := !(Cue.ofJson entry).toBool

/-- The report on an entry of the list at a path that is no valid cue. -/
def isReport (path : Files.Path) : Effect → Bool
  | .log e => e = Log.error ("Invalid sound entry in " ++ path.toString)
  | _ => false

/-- Why a clip breaks off its loading. -/
inductive ClipBreaks (disk : Disk) (c : Cue) : Fault → Prop
  /-- It cannot even be looked up. -/
  | long {e : FileError} (h : disk.exists_ (.ofString c.clip) = .error e) :
      ClipBreaks disk c (.file e)
  /-- It is there, but cannot be opened. -/
  | closed {e : FileError} (h : disk.exists_ (.ofString c.clip) = .ok true)
      (hopen : disk.readAt c.clip = .error e) : ClipBreaks disk c (.file e)
  /-- It holds samples that cannot be sampled anew for the pitch of the cue. -/
  | pitch {data : ByteArray} {samples : Samples} {e : Misfit}
      (h : disk.exists_ (.ofString c.clip) = .ok true) (hopen : disk.readAt c.clip = .ok data)
      (hsamples : samplesOf? data = some samples) (hpitch : (c.pitch != 1) = true)
      (he : samples.speedUp c.pitch = .error e) : ClipBreaks disk c (.misfit e)

/-- The clip of the first of these cues that breaks off its loading does so for this reason. -/
inductive FirstBreaks (disk : Disk) : List Cue → Fault → Prop
  | here {c : Cue} {cs : List Cue} {e : Fault} (h : ClipBreaks disk c e) :
      FirstBreaks disk (c :: cs) e
  | later {c : Cue} {cs : List Cue} {e : Fault} (hc : ∀ e', ¬ClipBreaks disk c e')
      (h : FirstBreaks disk cs e) : FirstBreaks disk (c :: cs) e

variable {disk : Disk} {path : Files.Path} {c : Cue} {j : Jukebox} {e : Fault}

/-! ## One registration -/

theorem samplesAt_error_iff {pitch : Float} {data : ByteArray} {e : Misfit} :
    samplesAt pitch data = .error e ↔
      ∃ samples, samplesOf? data = some samples ∧ (pitch != 1) = true ∧
        samples.speedUp pitch = .error e := by
  unfold samplesAt
  cases samplesOf? data with
  | none => simp
  | some samples =>
    cases hpitch : pitch != 1 with
    | false => simp
    | true => cases hspeed : samples.speedUp pitch <;> simp [Except.map, hspeed]

/-- Why the clip of a cue breaks off its registration. -/
theorem loadVoice_error_iff (disk : Disk) (master : Float) (channel : Nat) (c : Cue) :
    (loadVoice disk master channel c).1 = .error e ↔ ClipBreaks disk c e := by
  constructor
  · intro h
    unfold loadVoice at h
    split at h
    · next hlook =>
      cases h
      exact .long hlook
    · cases h
    · next hlook =>
      split at h
      · next hopen =>
        cases h
        exact .closed hlook hopen
      · next data hopen =>
        split at h
        · next hsamples =>
          cases h
          obtain ⟨samples, hsamples, hpitch, hspeed⟩ := samplesAt_error_iff.1 hsamples
          exact .pitch hlook hopen hsamples hpitch hspeed
        · cases h
        · cases h
  · intro h
    unfold loadVoice
    cases h with
    | long hlook => simp only [hlook]
    | closed hlook hopen => simp only [hlook, hopen]
    | pitch hlook hopen hsamples hpitch hspeed =>
      have herror := samplesAt_error_iff.2 ⟨_, hsamples, hpitch, hspeed⟩
      simp only [hlook, hopen, herror]

/-- A clip breaks off its loading for one reason only. -/
theorem ClipBreaks.unique {e' : Fault} (h : ClipBreaks disk c e) (h' : ClipBreaks disk c e') :
    e = e' := by
  have hload := (loadVoice_error_iff disk 1 0 c).2 h
  rw [(loadVoice_error_iff disk 1 0 c).2 h'] at hload
  cases hload
  rfl

/-- Any other comes last; its registration may break off, but not before that. -/
structure Joins (disk : Disk) (c : Cue) (j : Jukebox) (r : Registration) : Prop where
  tracks : ∃ voice, r.jukebox.tracks = j.tracks ++ [⟨c, voice⟩]
  initialized : r.jukebox.initialized = j.initialized
  breaks : ∀ e, r.kept = .error e ↔ j.initialized = true ∧ ClipBreaks disk c e
  kept : ∀ b, r.kept = .ok b → b = true

theorem Joins.names_eq {r : Registration} (h : Joins disk c j r) :
    r.jukebox.names = j.names ++ [c.name] := by
  obtain ⟨voice, htracks⟩ := h.tracks
  simp [Jukebox.names, htracks]

variable {entries : List Json} {count n : Nat}

theorem validCues_invalid {entry : Json} {faults : List String}
    (h : Cue.ofJson entry = .error faults) (folder : Files.Path) :
    validCues folder (entry :: entries) = validCues folder entries := by
  simp [validCues, h, Except.toOption]

theorem validCues_valid {entry : Json} (h : Cue.ofJson entry = .ok c) (folder : Files.Path) :
    validCues folder (entry :: entries) = resolve folder c :: validCues folder entries := by
  simp [validCues, h, Except.toOption]

/-- What comes of the entries of a list. -/
structure Takes (disk : Disk) (path : Files.Path) (count : Nat) (entries : List Json)
    (j : Jukebox) (r : Loading) : Prop where
  /-- It breaks off with the clip of the first newcomer that does, once there is a mixer. -/
  breaks : ∀ e, r.count = .error e ↔ j.initialized = true ∧
    FirstBreaks disk (newcomers j.names (validCues path.parent entries)) e
  /-- What was registered stays, and what is added is counted, … -/
  added : ∃ added, r.jukebox.tracks = j.tracks ++ added ∧
    ∀ n, r.count = .ok n → n = count + added.length
  /-- … which are the newcomers, … -/
  cues : ∀ n, r.count = .ok n → r.jukebox.tracks.map (·.cue) =
    j.tracks.map (·.cue) ++ newcomers j.names (validCues path.parent entries)
  /-- … and each entry that is no valid cue is reported. -/
  reports : ∀ n, r.count = .ok n → r.effects.countP (isReport path) = entries.countP isInvalid

variable {entry : Json} {r : Loading} {effects : List Effect}

theorem Takes.report (h : Takes disk path count entries j r) {faults : List String}
    (hentry : Cue.ofJson entry = .error faults) : Takes disk path count (entry :: entries) j
      { r with effects := .log (Log.error ("Invalid sound entry in " ++ path.toString)) ::
        r.effects } := by
  obtain ⟨hbreaks, hadded, hcues, hreports⟩ := h
  rw [← validCues_invalid hentry] at hbreaks hcues
  refine ⟨hbreaks, hadded, hcues, fun n hn => ?_⟩
  have hinvalid : isInvalid entry = true := by simp [isInvalid, hentry, Except.toBool]
  have hreport : isReport path (.log (Log.error
      ("Invalid sound entry in " ++ path.toString))) = true := by simp [isReport]
  rw [List.countP_cons_of_pos hreport, List.countP_cons_of_pos hinvalid, hreports n hn]

theorem countP_isInvalid (hentry : Cue.ofJson entry = .ok c) :
    (entry :: entries).countP isInvalid = entries.countP isInvalid := by
  simp [isInvalid, hentry, Except.toBool]

theorem Takes.decline (h : Takes disk path count entries j r) (hentry : Cue.ofJson entry = .ok c)
    (htaken : (resolve path.parent c).name ∈ j.names)
    (heffects : effects.countP (isReport path) = 0) :
    Takes disk path count (entry :: entries) j { r with effects := effects ++ r.effects } := by
  obtain ⟨hbreaks, hadded, hcues, hreports⟩ := h
  have hnewcomers : newcomers j.names (validCues path.parent (entry :: entries)) =
      newcomers j.names (validCues path.parent entries) := by
    rw [validCues_valid hentry, newcomers, if_pos htaken]
  rw [← hnewcomers] at hbreaks hcues
  refine ⟨hbreaks, hadded, hcues, fun n hn => ?_⟩
  rw [List.countP_append, heffects, Nat.zero_add, countP_isInvalid hentry, hreports n hn]

/-- The newcomers behind one that joins. -/
theorem Joins.newcomers_eq {r : Registration} (hjoins : Joins disk (resolve path.parent c) j r)
    (hentry : Cue.ofJson entry = .ok c) (hnew : (resolve path.parent c).name ∉ j.names) :
    newcomers j.names (validCues path.parent (entry :: entries)) =
      resolve path.parent c ::
        newcomers r.jukebox.names (validCues path.parent entries) := by
  rw [validCues_valid hentry, newcomers, if_neg hnew, hjoins.names_eq]

theorem firstBreaks_cons {cs : List Cue} (hc : ∀ e, ¬ClipBreaks disk c e) :
    FirstBreaks disk (c :: cs) e ↔ FirstBreaks disk cs e := by
  refine ⟨fun h => ?_, .later hc⟩
  cases h with
  | here h => exact absurd h (hc e)
  | later _ h => exact h

theorem Takes.join {g : Registration} (h : Takes disk path (count + 1) entries g.jukebox r)
    (hentry : Cue.ofJson entry = .ok c) (hnew : (resolve path.parent c).name ∉ j.names)
    (hjoins : Joins disk (resolve path.parent c) j g) (hkept : g.kept = .ok true)
    (heffects : g.effects.countP (isReport path) = 0) :
    Takes disk path count (entry :: entries) j { r with effects := g.effects ++ r.effects } := by
  obtain ⟨hbreaks, ⟨added, htracks, hadded⟩, hcues, hreports⟩ := h
  obtain ⟨voice, hjoined⟩ := hjoins.tracks
  refine ⟨fun e => ?_, ⟨⟨resolve path.parent c, voice⟩ :: added, ?_, fun n hn => ?_⟩,
    fun n hn => ?_, fun n hn => ?_⟩
  · rw [hbreaks, hjoins.initialized, hjoins.newcomers_eq hentry hnew]
    refine and_congr_right fun hinit => (firstBreaks_cons fun e' he' => ?_).symm
    rw [(hjoins.breaks e').2 ⟨hinit, he'⟩] at hkept
    cases hkept
  · rw [htracks, hjoined, List.append_assoc]
    rfl
  · rw [hadded n hn, List.length_cons]
    omega
  · rw [hcues n hn, hjoined, hjoins.newcomers_eq hentry hnew]
    simp
  · rw [List.countP_append, heffects, Nat.zero_add, countP_isInvalid hentry, hreports n hn]

theorem Takes.stop {g : Registration} (hentry : Cue.ofJson entry = .ok c)
    (hnew : (resolve path.parent c).name ∉ j.names)
    (hjoins : Joins disk (resolve path.parent c) j g) (hkept : g.kept = .error e) :
    Takes disk path count (entry :: entries) j ⟨g.jukebox, effects, .error e⟩ := by
  obtain ⟨voice, hjoined⟩ := hjoins.tracks
  obtain ⟨hinit, hclip⟩ := (hjoins.breaks e).1 hkept
  refine ⟨fun e' => ?_, ⟨_, hjoined, nofun⟩, nofun, nofun⟩
  rw [hjoins.newcomers_eq hentry hnew, Except.error.injEq]
  constructor
  · rintro rfl
    exact ⟨hinit, .here hclip⟩
  · rintro ⟨-, hfirst⟩
    cases hfirst with
    | here h => exact hclip.unique h
    | later h _ => exact absurd hclip (h e)

/-- Bytes that are no text break off the loading. -/
example : (load [⟨.ofString "hall.json", .bytes ⟨#[0xff]⟩⟩] (.ofString "hall.json") {}).count =
    .error (.file .notText) := by
  rfl

end VisualNovel.Sound.Jukebox
