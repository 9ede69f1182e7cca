import VisualNovel.Proofs.Sound.Themes
/-!
# The registry and the mixer

In a run every cue that is offered for registration is written down (`Jukebox.offers`), and every
effect (`Jukebox.effects`). The registry tallies with these (`Jukebox.Tallies`): it holds the first
cue of each name, and each loaded sound has the channel of its place, the volume of its cue times
the master volume, and is playing if the last call that reached its channel was one to play it.

One lemma tells what may be changed beside the sounds (`Tallies.beside`), one what a change to all
sounds must keep (`Tallies.retune`), one what is kept when a call reaches a channel
(`Tallies.call`), and one when a cue is added (`Tallies.add`). From these it follows for each order
(`Tallies.perform`), and for a run (`Tallies.after`).
-/
namespace VisualNovel.Sound
open Files

/-- The calls that reach a channel, in order: true for one to play it, false for one to stop it. -/
def callsOn (channel : Nat) (es : List Effect) : List Bool :=
  es.filterMap fun
    | .mixer (.play c _) => if c = channel then some true else none
    | .mixer (.stop c) => if c = channel then some false else none
    | _ => none

/-- No channel is reached. -/
def Quiet (es : List Effect) : Prop := ∀ channel, callsOn channel es = []

namespace Jukebox

/-- The cues that are offered for registration from the entries of a list: those that are valid, up
to one whose registration breaks off. -/
def offersOf (disk : Disk) (path : Files.Path) : List Json → Jukebox → List Cue
  | [], _ => []
  | entry :: entries, j =>
    match Cue.ofJson entry with
    | .error _ => offersOf disk path entries j
    | .ok c =>
      let r := j.register disk (resolve path.parent c)
      resolve path.parent c :: if r.kept.toBool then offersOf disk path entries r.jukebox else []

/-- The entries of the list in a file, if it can be read as one. -/
def entriesAt (disk : Disk) (path : Files.Path) : List Json :=
  ((disk.readText path).toOption.bind fun text =>
    (Json.parse text).toOption.bind (·.entries?)).getD []

/-- The cues that an order offers for registration. -/
def offersBy (j : Jukebox) : Order → List Cue
  | .register _ cue => [cue]
  | .load disk path => offersOf disk path (entriesAt disk path) j
  | .init .. | .quit | .play _ | .stop _ | .switchTheme _ | .stopAll => []
  | .setMaster _ | .finish _ => []

/-- The cues that are offered for registration in a run, in order. -/
def offers (j : Jukebox) : List Order → List Cue
  | [] => []
  | o :: orders => j.offersBy o ++ (j.perform o).1.offers orders

/-- The effects of a run, in order. -/
def effects (j : Jukebox) : List Order → List Effect
  | [] => []
  | o :: orders => (j.perform o).2 ++ (j.perform o).1.effects orders

/-- The sound of a cue is as it should be at its place, behind these effects. -/
structure Sounds (j : Jukebox) (es : List Effect) (place : Nat) (c : Cue) (v : Voice) : Prop where
  channel : v.channel = place
  room : place < j.mixer.channels
  volume : v.volume = c.volume * j.master
  busy : v.busy = true ↔ (callsOn place es).getLast? = some true

/-- The registry is what it should be behind these offers and effects. -/
structure Tallies (j : Jukebox) (offered : List Cue) (es : List Effect) : Prop where
  names : j.names = (offered.map (·.name)).eraseDups
  distinct : j.names.Nodup
  first : ∀ name, (j.track? name).map (·.cue) = offered.find? (·.name = name)
  sounds : ∀ i t v, j.tracks[i]? = some t → t.voice = some v → j.Sounds es i t.cue v
  master : 0 ≤ j.master ∧ j.master ≤ 1
  /-- No channel has been reached that is still to be given away. -/
  free : ∀ i, j.tracks.length ≤ i → callsOn i es = []

variable {j j' : Jukebox} {offered : List Cue} {es es' more : List Effect} {name : String}

/-! ## Calls -/

@[simp] theorem callsOn_append (channel : Nat) (es es' : List Effect) :
    callsOn channel (es ++ es') = callsOn channel es ++ callsOn channel es' :=
  List.filterMap_append

theorem quiet_log (e : Log.Entry) : Quiet [.log e] := fun _ => rfl

theorem quiet_notice (n : Notice) : Quiet [.notice n] := fun _ => rfl

/-! ## What changes a jukebox -/

/-- A name stands at one place only. -/
theorem Tallies.place_eq (h : j.Tallies offered es) {i k : Nat} {t u : Track}
    (ht : j.tracks[i]? = some t) (hu : j.tracks[k]? = some u) (hname : t.cue.name = u.cue.name) :
    i = k := by
  have hi : j.names[i]? = some t.cue.name := by simp [Jukebox.names, ht]
  have hk : j.names[k]? = some t.cue.name := by simp [Jukebox.names, hu, hname]
  exact (List.getElem?_inj (List.getElem?_eq_some_iff.1 hi).1 h.distinct).1 (hi.trans hk.symm)

/-- Each sound is changed, and is as it should be behind that. -/
theorem Tallies.retune (h : j.Tallies offered es) {f : Track → Voice → Voice}
    (htracks : j'.tracks = j.tracks.map fun t => { t with voice := t.voice.map (f t) })
    (hmaster : 0 ≤ j'.master ∧ j'.master ≤ 1)
    (hsounds : ∀ i t v, j.tracks[i]? = some t → t.voice = some v → j.Sounds es i t.cue v →
      j'.Sounds es' i t.cue (f t v))
    (hfree : ∀ i, j.tracks.length ≤ i → callsOn i es' = []) : j'.Tallies offered es' := by
  have hnames : j'.names = j.names := by
    simp only [Jukebox.names, htracks, List.map_map]
    rfl
  refine ⟨hnames.trans h.names, hnames ▸ h.distinct, fun name => ?_, fun i t v ht hv => ?_,
    hmaster, fun i hi => ?_⟩
  · have htrack : j'.track? name =
        (j.track? name).map fun t => { t with voice := t.voice.map (f t) } := by
      rw [track?, htracks]
      apply track?_map
      intro t
      rfl
    rw [← h.first, htrack, Option.map_map]
    rfl
  · rw [htracks, List.getElem?_map] at ht
    obtain ⟨u, hu, rfl⟩ := Option.map_eq_some_iff.1 ht
    obtain ⟨w, hw, rfl⟩ := Option.map_eq_some_iff.1 hv
    exact hsounds i u w hu hw (h.sounds i u w hu hw)
  · rw [htracks, List.length_map] at hi
    exact hfree i hi

/-- Beside the sounds much may change, as long as no channel is reached and none is taken away. -/
theorem Tallies.beside (h : j.Tallies offered es) (htracks : j'.tracks = j.tracks)
    (hmaster : j'.master = j.master) (hroom : j.mixer.channels ≤ j'.mixer.channels)
    (hquiet : Quiet more) : j'.Tallies offered (es ++ more) := by
  have hcalls (channel : Nat) : callsOn channel (es ++ more) = callsOn channel es := by
    rw [callsOn_append, hquiet channel, List.append_nil]
  refine h.retune (f := fun _ v => v) ?_ (hmaster ▸ h.master) (fun i t v ht hv hsound => ?_)
    fun i hi => (hcalls i).trans (h.free i hi)
  · rw [htracks]
    simp
  · exact ⟨hsound.channel, Nat.lt_of_lt_of_le hsound.room hroom, hmaster ▸ hsound.volume,
      (hcalls i).symm ▸ hsound.busy⟩

/-- A call reaches the channel of a sound. -/
theorem Tallies.call (h : j.Tallies offered es) {t : Track} {v : Voice}
    (ht : j.track? name = some t) (hv : t.voice = some v) (busy : Bool)
    (hcall : ∀ channel, callsOn channel more = if v.channel = channel then [busy] else []) :
    (j.modifyVoice name fun v => { v with busy }).Tallies offered (es ++ more) := by
  obtain ⟨place, hplace⟩ := List.getElem?_of_mem (List.mem_of_find?_eq_some ht)
  have hname := name_of_track? ht
  have hchannel := (h.sounds place t v hplace hv).channel
  refine h.retune (f := fun t v => if t.cue.name = name then { v with busy } else v) ?_ h.master
    (fun i u w hu hw hsound => ?_) fun i hi => ?_
  · refine List.map_congr_left fun u _ => ?_
    split
    · rfl
    · simp
  · by_cases hu' : u.cue.name = name
    · obtain rfl := h.place_eq hplace hu (hname.trans hu'.symm)
      rw [if_pos hu']
      refine ⟨hsound.channel, hsound.room, hsound.volume, ?_⟩
      rw [callsOn_append, hcall, if_pos hchannel, List.getLast?_append]
      simp
    · have hne : v.channel ≠ i := by
        rw [hchannel]
        rintro rfl
        rw [hplace] at hu
        obtain rfl := Option.some.inj hu
        exact hu' hname
      rw [if_neg hu']
      refine ⟨hsound.channel, hsound.room, hsound.volume, ?_⟩
      rw [callsOn_append, hcall, if_neg hne, List.append_nil]
      exact hsound.busy
  · have hlt := (List.getElem?_eq_some_iff.1 hplace).1
    rw [callsOn_append, hcall, if_neg (by omega), h.free i hi]
    rfl

theorem eraseDups_snoc (names : List String) (name : String) :
    (names ++ [name]).eraseDups =
      if name ∈ names then names.eraseDups else names.eraseDups ++ [name] := by
  rw [List.eraseDups_append]
  split
  · next h => simp [List.removeAll, h]
  · next h =>
    have hone : [name].removeAll names = [name] := by simp [List.removeAll, h]
    rw [hone]
    rfl

/-- A name is registered if a cue was offered under it. -/
theorem Tallies.mem_iff (h : j.Tallies offered es) :
    name ∈ offered.map (·.name) ↔ (j.track? name).isSome = true := by
  rw [← Option.isSome_map (f := fun t : Track => t.cue), h.first]
  simp

/-- A cue is offered under a name that there is already. -/
theorem Tallies.decline (h : j.Tallies offered es) {t : Track} {c : Cue}
    (ht : j.track? c.name = some t) : j.Tallies (offered ++ [c]) es := by
  have hmem : c.name ∈ offered.map (·.name) := h.mem_iff.2 (by rw [ht]; rfl)
  refine { h with names := ?_, first := fun name => ?_ }
  · rw [List.map_append, List.map_singleton, eraseDups_snoc, if_pos hmem, h.names]
  · rw [List.find?_append, h.first]
    by_cases hname : c.name = name
    · have hfirst := h.first c.name
      rw [ht, hname] at hfirst
      rw [← hfirst]
      rfl
    · simp [hname]

/-- A cue is added under a name that there is not yet. -/
theorem Tallies.add (h : j.Tallies offered es) {c : Cue} {voice : Option Voice}
    (hnew : j.track? c.name = none)
    (hvoice : ∀ v, voice = some v → j.Sounds es j.tracks.length c v) :
    Tallies { j with tracks := j.tracks ++ [⟨c, voice⟩] } (offered ++ [c]) es := by
  have hmem : c.name ∉ offered.map (·.name) := by
    rw [h.mem_iff, hnew]
    exact nofun
  have hnames : c.name ∉ j.names := by
    rw [h.names, List.mem_eraseDups]
    exact hmem
  have hadded : Jukebox.names { j with tracks := j.tracks ++ [⟨c, voice⟩] } =
      j.names ++ [c.name] := by
    simp [Jukebox.names]
  refine ⟨?_, ?_, fun name => ?_, fun i t v ht hv => ?_, h.master, fun i hi => ?_⟩
  · rw [List.map_append, List.map_singleton, eraseDups_snoc, if_neg hmem, ← h.names, hadded]
  · rw [hadded]
    refine List.nodup_append.2 ⟨h.distinct, List.pairwise_singleton .., fun a ha b hb hab => ?_⟩
    rw [hab, List.mem_singleton.1 hb] at ha
    exact hnames ha
  · rw [List.find?_append, ← h.first, track?, List.find?_append, Option.map_or]
    congr 1
    by_cases hname : c.name = name <;> simp [hname]
  · rcases Nat.lt_trichotomy i j.tracks.length with hlt | rfl | hgt
    · rw [List.getElem?_append_left hlt] at ht
      obtain ⟨hchannel, hroom, hvolume, hbusy⟩ := h.sounds i t v ht hv
      exact ⟨hchannel, hroom, hvolume, hbusy⟩
    · rw [List.getElem?_concat_length] at ht
      obtain rfl := Option.some.inj ht
      obtain ⟨hchannel, hroom, hvolume, hbusy⟩ := hvoice v hv
      exact ⟨hchannel, hroom, hvolume, hbusy⟩
    · rw [List.getElem?_eq_none (by simpa using Nat.succ_le_of_lt hgt)] at ht
      cases ht
  · rw [List.length_append] at hi
    exact h.free i (by omega)

/-! ## Registrations -/

theorem quiet_loadVoice (disk : Disk) (master : Float) (channel : Nat) (c : Cue) :
    Quiet (loadVoice disk master channel c).2 := by
  unfold loadVoice
  split
  · exact fun _ => rfl
  · exact quiet_log _
  · split
    · exact fun _ => rfl
    · split
      · exact fun _ => rfl
      · exact quiet_log _
      · exact fun _ => rfl

theorem reserve_spec (j : Jukebox) (channel : Nat) :
    (j.reserve channel).1.tracks = j.tracks ∧ (j.reserve channel).1.master = j.master ∧
      j.mixer.channels ≤ (j.reserve channel).1.mixer.channels ∧
      channel < (j.reserve channel).1.mixer.channels ∧ Quiet (j.reserve channel).2 := by
  unfold reserve
  split
  · next h => exact ⟨rfl, rfl, Nat.le_succ_of_le h, Nat.lt_succ_self channel, fun _ => rfl⟩
  · next h => exact ⟨rfl, rfl, Nat.le_refl _, Nat.not_le.1 h, fun _ => rfl⟩

/-- A cue is offered for registration. -/
theorem Tallies.register (h : j.Tallies offered es) (disk : Disk) (c : Cue) :
    (j.register disk c).jukebox.Tallies (offered ++ [c]) (es ++ (j.register disk c).effects) := by
  unfold Jukebox.register
  split
  · next t ht => exact (h.decline ht).beside rfl rfl (Nat.le_refl _) (quiet_log _)
  · next hnew =>
    have hsilent {es' : List Effect} (hquiet : Quiet es') :
        Tallies { j with tracks := j.tracks ++ [⟨c, none⟩] } (offered ++ [c]) (es ++ es') :=
      (h.add hnew fun v hv => by cases hv).beside rfl rfl (Nat.le_refl _) hquiet
    split
    · have hquiet := quiet_loadVoice disk j.master j.tracks.length c
      dsimp only
      split
      · next hload => exact hsilent (by rwa [hload] at hquiet)
      · next hload => exact hsilent (by rwa [hload] at hquiet)
      · next v effects hload =>
        obtain ⟨htracks, hmaster, hroom, hroom', hquiet'⟩ := j.reserve_spec j.tracks.length
        rw [hload] at hquiet
        have hall := (h.beside rfl rfl (Nat.le_refl _) hquiet).beside htracks hmaster hroom hquiet'
        rw [List.append_assoc] at hall
        refine hall.add (by rw [track?, htracks]; exact hnew) fun w hw => ?_
        obtain rfl := Option.some.inj hw
        obtain ⟨samples, rfl⟩ := loadVoice_eq_some hload
        rw [htracks]
        refine ⟨rfl, hroom', by rw [hmaster], ?_⟩
        rw [hall.free _ (Nat.le_of_eq (congrArg List.length htracks))]
        simp
    · exact hsilent fun _ => rfl

theorem Tallies.registerAll (h : j.Tallies offered es) (disk : Disk) (path : Files.Path)
    (count : Nat) (entries : List Json) :
    (registerAll disk path count entries j).jukebox.Tallies
      (offered ++ offersOf disk path entries j)
      (es ++ (registerAll disk path count entries j).effects) := by
  induction entries generalizing j offered es count with
  | nil => simpa [Jukebox.registerAll, offersOf] using h
  | cons entry entries ih =>
    unfold Jukebox.registerAll offersOf
    cases Cue.ofJson entry with
    | error faults =>
      have hrest := ih (h.beside rfl rfl (Nat.le_refl _)
        (quiet_log (Log.error ("Invalid sound entry in " ++ path.toString)))) count
      simpa using hrest
    | ok c =>
      have hregister := h.register disk (resolve path.parent c)
      dsimp only
      cases hkept : (j.register disk (resolve path.parent c)).kept with
      | error e => simpa [Except.toBool] using hregister
      | ok kept =>
        have hrest := ih hregister (if kept then count + 1 else count)
        simpa [Except.toBool] using hrest

/-- The valid cues of a list are offered from the first on, and all of them if no registration
breaks off. -/
theorem offersOf_prefix (disk : Disk) (path : Files.Path) (count : Nat) (entries : List Json)
    (j : Jukebox) :
    let valid := entries.filterMap fun entry =>
      (Cue.ofJson entry).toOption.map (resolve path.parent)
    offersOf disk path entries j <+: valid ∧
      ((Jukebox.registerAll disk path count entries j).count.toBool = true →
        offersOf disk path entries j = valid) := by
  induction entries generalizing j count with
  | nil => exact ⟨List.prefix_refl _, fun _ => rfl⟩
  | cons entry entries ih =>
    unfold Jukebox.registerAll offersOf
    rw [List.filterMap_cons]
    cases Cue.ofJson entry with
    | error faults => exact ih count j
    | ok c =>
      dsimp only [Except.toOption, Option.map_some]
      cases (j.register disk (resolve path.parent c)).kept with
      | error e => exact ⟨(List.prefix_cons_inj _).2 List.nil_prefix, fun h => by cases h⟩
      | ok kept =>
        obtain ⟨hfront, hall⟩ := ih (if kept then count + 1 else count)
          (j.register disk (resolve path.parent c)).jukebox
        exact ⟨(List.prefix_cons_inj _).2 hfront, fun h => congrArg (_ :: ·) (hall h)⟩

theorem Tallies.load (h : j.Tallies offered es) (disk : Disk) (path : Files.Path) :
    (j.load disk path).jukebox.Tallies (offered ++ offersOf disk path (entriesAt disk path) j)
      (es ++ (j.load disk path).effects) := by
  have hnone {es' : List Effect} (hquiet : Quiet es') :
      j.Tallies (offered ++ offersOf disk path [] j) (es ++ es') := by
    simpa [offersOf] using h.beside rfl rfl (Nat.le_refl _) hquiet
  unfold Jukebox.load entriesAt
  cases disk.readText path with
  | error e =>
    dsimp only
    split
    · exact hnone (quiet_log _)
    · exact hnone fun _ => rfl
  | ok text =>
    dsimp only [Except.toOption, Option.bind_some]
    cases Json.parse text with
    | error e =>
      cases e with
      | notJson => exact hnone (quiet_log _)
      | misfit e => exact hnone fun _ => rfl
    | ok value =>
      dsimp only [Option.bind_some]
      cases value.entries? with
      | none => exact hnone fun _ => rfl
      | some entries => exact h.registerAll disk path 0 entries

/-! ## Playback -/

theorem Tallies.play (h : j.Tallies offered es) (name : String) :
    (j.play name).1.Tallies offered (es ++ (j.play name).2) := by
  unfold Jukebox.play
  split
  · exact h.beside rfl rfl (Nat.le_refl _) (quiet_log _)
  · exact h.beside rfl rfl (Nat.le_refl _) (quiet_log _)
  · next c v ht =>
    refine h.call ht rfl true fun channel => ?_
    by_cases hchannel : v.channel = channel <;> simp [callsOn, hchannel]

theorem Tallies.stop (h : j.Tallies offered es) (name : String) :
    (j.stop name).1.Tallies offered (es ++ (j.stop name).2) := by
  unfold Jukebox.stop
  split
  · exact h.beside rfl rfl (Nat.le_refl _) (quiet_log _)
  · next t ht =>
    split
    · exact h.beside rfl rfl (Nat.le_refl _) (quiet_log _)
    · next v hv =>
      refine h.call ht (Option.filter_eq_some_iff.1 hv).1 false fun channel => ?_
      by_cases hchannel : v.channel = channel <;> simp [callsOn, hchannel]

theorem mem_busyChannels {channel : Nat} : channel ∈ j.busyChannels ↔
    ∃ t v, t ∈ j.tracks ∧ t.voice = some v ∧ v.busy = true ∧ v.channel = channel := by
  simp only [busyChannels, List.mem_filterMap, Option.map_eq_some_iff, Option.filter_eq_some_iff]
  constructor
  · rintro ⟨t, ht, v, ⟨hv, hbusy⟩, hchannel⟩
    exact ⟨t, v, ht, hv, hbusy, hchannel⟩
  · rintro ⟨t, v, ht, hv, hbusy, hchannel⟩
    exact ⟨t, ht, v, ⟨hv, hbusy⟩, hchannel⟩

theorem callsOn_stops (channel : Nat) (channels : List Nat) :
    callsOn channel (channels.map fun c => .mixer (.stop c)) =
      (channels.filter (· = channel)).map fun _ => false := by
  induction channels with
  | nil => rfl
  | cons c channels ih =>
    rw [List.map_cons, List.filter_cons, callsOn, List.filterMap_cons]
    by_cases hc : c = channel
    · simp only [hc, if_true, decide_true, List.map_cons]
      exact congrArg (false :: ·) ih
    · simp only [hc, if_false, decide_false, Bool.false_eq_true]
      exact ih

theorem Tallies.stopAll (h : j.Tallies offered es) :
    j.stopAll.1.Tallies offered (es ++ j.stopAll.2) := by
  have hcalls (i : Nat) : callsOn i (es ++ j.stopAll.2) =
      callsOn i es ++ (j.busyChannels.filter (· = i)).map fun _ => false := by
    rw [callsOn_append, ← callsOn_stops]
    rfl
  refine h.retune (f := fun _ v => { v with busy := false }) rfl h.master
    (fun i t v ht hv hsound => ⟨hsound.channel, hsound.room, hsound.volume, ?_⟩) fun i hi => ?_
  · -- The last call is one to stop, or there was none to play.
    refine iff_of_false nofun fun hlast => ?_
    rw [hcalls, List.getLast?_append, Option.or_eq_some_iff] at hlast
    rcases hlast with hstop | ⟨hnone, hplay⟩
    · obtain ⟨c, -, hc⟩ := List.mem_map.1 (List.mem_of_getLast? hstop)
      cases hc
    · have hmem : i ∈ j.busyChannels := mem_busyChannels.2
        ⟨t, v, List.mem_of_getElem? ht, hv, hsound.busy.2 hplay, hsound.channel⟩
      rw [List.getLast?_eq_none_iff, List.map_eq_nil_iff, List.filter_eq_nil_iff] at hnone
      exact hnone i hmem (decide_eq_true rfl)
  · have hunused : ∀ c ∈ j.busyChannels, ¬decide (c = i) = true := by
      intro c hc hci
      obtain ⟨t, v, ht, hv, -, hchannel⟩ := mem_busyChannels.1 hc
      obtain ⟨place, hplace⟩ := List.getElem?_of_mem ht
      have hlt := (List.getElem?_eq_some_iff.1 hplace).1
      rw [(h.sounds place t v hplace hv).channel] at hchannel
      have hci' := of_decide_eq_true hci
      omega
    rw [hcalls, h.free i hi, List.filter_eq_nil_iff.2 hunused]
    rfl

theorem Tallies.switchTheme (h : j.Tallies offered es) (name : String) :
    (j.switchTheme name).1.Tallies offered (es ++ (j.switchTheme name).2) := by
  have hfade : (j.fade name).1.Tallies offered (es ++ (j.fade name).2) := by
    unfold fade
    cases j.outgoing? name with
    | none => simpa using h
    | some p => exact h.stop p
  have hraise {j : Jukebox} {es : List Effect} (h : j.Tallies offered es) :
      (j.raise (themeOf name)).1.Tallies offered (es ++ (j.raise (themeOf name)).2) := by
    unfold raise
    cases (themeOf name).filter fun n => !j.isPlaying n with
    | none => simpa using h
    | some n => exact h.play n
  have hset : Tallies { (j.fade name).1 with theme := themeOf name } offered
      (es ++ (j.fade name).2) := by
    rw [← List.append_nil (j.fade name).2, ← List.append_assoc]
    exact hfade.beside rfl rfl (Nat.le_refl _) fun _ => rfl
  have hall := (hraise hset).beside rfl rfl (Nat.le_refl _)
    (quiet_notice ⟨.themeSwitched, .theme (themeOf name) j.theme⟩)
  rw [switchTheme_eq]
  simpa using hall

/-- One double is at most another if it is below it: both are told from how they compare. -/
theorem float_le_of_lt {x y : Float} (h : x < y) : x ≤ y := by
  have hlt : x.toModel < y.toModel := of_decide_eq_true h
  refine decide_eq_true (p := x.toModel ≤ y.toModel) ?_
  change Float.Model.UnpackedFloat.lt _ _ = true at hlt
  change Float.Model.UnpackedFloat.le _ _ = true
  unfold Float.Model.UnpackedFloat.lt at hlt
  unfold Float.Model.UnpackedFloat.le
  rw [eq_of_beq hlt]
  rfl

theorem clampVolume_mem (x : Float) : 0 ≤ clampVolume x ∧ clampVolume x ≤ 1 := by
  have hzero : (0 : Float) ≤ 0 ∧ (0 : Float) ≤ 1 := by decide
  have hone : (1 : Float) ≤ 1 := by decide
  obtain ⟨v, hv, hle⟩ : ∃ v, (if x < 1 then x else 1) = v ∧ v ≤ 1 := by
    refine ⟨_, rfl, ?_⟩
    split
    · next hlt => exact float_le_of_lt hlt
    · exact hone
  unfold clampVolume
  rw [hv]
  dsimp only
  split
  · next hpos => exact ⟨float_le_of_lt hpos, hle⟩
  · exact hzero

/-- What is brought into the range from 0 to 1 lies in it. -/
theorem clampNumber_mem (volume : Number) : 0 ≤ clampNumber volume ∧ clampNumber volume ≤ 1 := by
  cases volume with
  | int n =>
    unfold clampNumber
    dsimp only
    split <;> decide
  | real x => exact clampVolume_mem x

theorem Tallies.setMaster (h : j.Tallies offered es) (volume : Number) :
    (j.setMaster volume).Tallies offered es := by
  refine h.retune (f := fun t v => { v with volume := t.cue.volume * clampNumber volume }) rfl
    (clampNumber_mem volume) (fun i t v _ _ hsound => ?_) h.free
  exact ⟨hsound.channel, hsound.room, rfl, hsound.busy⟩

/-! ## Runs -/

theorem Tallies.init (h : j.Tallies offered es) (frequency size channels buffer : Json) :
    (j.init frequency size channels buffer).1.Tallies offered
      (es ++ (j.init frequency size channels buffer).2) := by
  unfold Jukebox.init
  split
  · exact h.beside rfl rfl (Nat.le_refl _) fun _ => rfl
  · dsimp only
    split
    · exact h.beside rfl rfl (Nat.le_refl _) fun _ => rfl
    · exact h.beside rfl rfl (Nat.le_refl _) fun _ => rfl

theorem Tallies.quit (h : j.Tallies offered es) : j.quit.1.Tallies offered (es ++ j.quit.2) := by
  have hall : j.quit.1.Tallies offered (es ++ j.stopAll.2 ++ [.mixer .quit]) :=
    h.stopAll.beside rfl rfl (Nat.le_refl _) fun _ => rfl
  rwa [List.append_assoc] at hall

/-- What an order keeps. -/
theorem Tallies.perform (h : j.Tallies offered es) {o : Order} (ho : ∀ n, o ≠ .finish n) :
    (j.perform o).1.Tallies (offered ++ j.offersBy o) (es ++ (j.perform o).2) := by
  have hnothing {j' : Jukebox} {es' : List Effect} (h' : j'.Tallies offered es') :
      j'.Tallies (offered ++ []) es' := by rwa [List.append_nil]
  cases o with
  | init frequency size channels buffer => exact hnothing (h.init ..)
  | quit => exact hnothing h.quit
  | register disk cue => exact h.register disk cue
  | load disk path => exact h.load disk path
  | play name => exact hnothing (h.play name)
  | stop name => exact hnothing (h.stop name)
  | switchTheme name => exact hnothing (h.switchTheme name)
  | stopAll => exact hnothing h.stopAll
  | setMaster volume =>
    refine hnothing ?_
    rw [show (j.perform (.setMaster volume)).2 = [] from rfl, List.append_nil]
    exact h.setMaster volume
  | finish name => exact absurd rfl (ho name)

/-- What a run keeps. -/
theorem Tallies.after (h : j.Tallies offered es) {orders : List Order}
    (horders : ∀ n, .finish n ∉ orders) :
    (j.after orders).Tallies (offered ++ j.offers orders) (es ++ j.effects orders) := by
  induction orders generalizing j offered es with
  | nil => simpa [Jukebox.after, offers, effects] using h
  | cons o orders ih =>
    have hstep := h.perform (o := o) fun n hn => horders n (hn ▸ List.mem_cons_self)
    have hrest := ih hstep fun n hn => horders n (List.mem_cons_of_mem _ hn)
    rw [List.append_assoc, List.append_assoc] at hrest
    exact hrest

/-- The registry and the mixer agree, behind these offers and effects. -/
structure Agrees (j : Jukebox) (offered : List Cue) (es : List Effect) : Prop where
  /-- There are the names under which cues were offered, in the order in which they first were, … -/
  names : j.names = (offered.map (·.name)).eraseDups
  /-- … and each keeps the first cue that was offered under it. -/
  first : ∀ name, (j.track? name).map (·.cue) = offered.find? (·.name = name)
  /-- Each loaded cue has the channel with the number of its place, which is one of the mixer, … -/
  channel : ∀ (i : Nat) (t : Track) (v : Voice), j.tracks[i]? = some t → t.voice = some v →
    v.channel = i ∧ i < j.mixer.channels
  /-- … and which no other has. -/
  alone : ∀ (i k : Nat) (t u : Track) (v w : Voice), j.tracks[i]? = some t → t.voice = some v →
    j.tracks[k]? = some u → u.voice = some w → v.channel = w.channel → i = k
  volume : ∀ t v, t ∈ j.tracks → t.voice = some v → v.volume = t.cue.volume * j.master
  master : 0 ≤ j.master ∧ j.master ≤ 1
  /-- A cue is playing if the last call that reached its channel was one to play it. -/
  playing : ∀ name, j.isPlaying name = true ↔
    ∃ v, j.voice? name = some v ∧ (callsOn v.channel es).getLast? = some true

theorem Tallies.agrees (h : j.Tallies offered es) : j.Agrees offered es where
  names := h.names
  first := h.first
  channel i t v ht hv := ⟨(h.sounds i t v ht hv).channel, (h.sounds i t v ht hv).room⟩
  alone i k t u v w ht hv hu hw hchannel := by
    rw [(h.sounds i t v ht hv).channel, (h.sounds k u w hu hw).channel] at hchannel
    exact hchannel
  volume t v ht hv := by
    obtain ⟨place, hplace⟩ := List.getElem?_of_mem ht
    exact (h.sounds place t v hplace hv).volume
  master := h.master
  playing name := by
    have hbusy {v : Voice} (hv : j.voice? name = some v) :
        v.busy = true ↔ (callsOn v.channel es).getLast? = some true := by
      obtain ⟨t, ht, hv⟩ := Option.bind_eq_some_iff.1 hv
      obtain ⟨place, hplace⟩ := List.getElem?_of_mem (List.mem_of_find?_eq_some ht)
      have hsound := h.sounds place t v hplace hv
      rw [hsound.channel]
      exact hsound.busy
    rw [isPlaying_iff]
    exact exists_congr fun v => and_congr_right hbusy

/-- **The registry and the mixer agree** behind every run in which no playback ends by itself: on
which cues are kept and where, on which channel each of them has, on how loud they are, and on which
are playing. -/
theorem registry_and_mixer_agree (mixer : Mixer) {orders : List Order}
    (horders : ∀ n, .finish n ∉ orders) :
    let start : Jukebox := Jukebox.mk mixer [] none 1 false
    (start.after orders).Agrees (start.offers orders) (start.effects orders) := by
  intro start
  have hfull : (0 : Float) ≤ 1 ∧ (1 : Float) ≤ 1 := by decide
  have hstart : start.Tallies [] [] := by
    refine ⟨rfl, List.nodup_nil, fun _ => rfl, fun i t v ht => ?_, hfull, fun _ _ => rfl⟩
    cases ht
  exact (hstart.after horders).agrees

/-- In a tower a bell is registered, another one, and a horn, which has no clip. -/
def towerOrders : List Order :=
  let disk : Files.Disk := [⟨.ofString "bell.wav", .bytes "[0]".toUTF8⟩]
  [.init (.int 44100) (.int (-16)) (.int 2) (.int 512),
    .register disk ⟨"Bell", "bell.wav", 1, 1, false⟩,
    .register disk ⟨"Bell", "gong.wav", 1, 1, true⟩,
    .register disk ⟨"Horn", "horn.wav", 1, 1, false⟩, .play "Horn", .play "Bell"]

theorem tower_agrees :
    let start : Jukebox := Jukebox.mk { channels := 0 } [] none 1 false
    (∀ n, .finish n ∉ towerOrders) ∧ (start.after towerOrders).names = ["Bell", "Horn"] ∧
      (start.after towerOrders).isPlaying "Bell" = true ∧
      (start.after towerOrders).Agrees (start.offers towerOrders) (start.effects towerOrders) := by
  intro start
  have horders : ∀ n, .finish n ∉ towerOrders := by
    intro n
    simp [towerOrders]
  exact ⟨horders, rfl, rfl, registry_and_mixer_agree _ horders⟩

end Jukebox
end VisualNovel.Sound
