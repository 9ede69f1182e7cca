import VisualNovel.Sound.Jukebox
/-!
# Orders to the jukebox

What can happen to a jukebox is an order: it is made ready or let go, cues are registered one by one
or from a list, they are played and stopped, and a playback comes to its end by itself. A run is a
list of orders (`after`).

For each order there is a lemma about what it makes of the voice under a name, which is all that
tells whether a cue is playing (`isPlaying_eq`), and one about the channels that receive a call to
play (`started`). An order that can start nothing leaves the theme as it is, and nothing is playing
after it that was not before (`perform_calms`).
-/
namespace VisualNovel.Sound
open Files

/-- What happens to a jukebox. -/
inductive Order where
  | init (frequency size channels buffer : Json)
  | quit
  | register (disk : Disk) (cue : Cue)
  | load (disk : Disk) (path : Files.Path)
  | play (name : String)
  | stop (name : String)
  | switchTheme (name : String)
  | stopAll
  | setMaster (volume : Number)
  /-- The playback of a cue comes to its end. -/
  | finish (name : String)

/-- The channels that receive a call to play, in order. -/
def started (effects : List Effect) : List Nat :=
  effects.filterMap fun
    | .mixer (.play channel _) => some channel
    | _ => none

/-- The sound at rest. -/
def Voice.atRest (v : Voice) : Voice := { v with busy := false }

/-- The sound while it is playing. -/
def Voice.going (v : Voice) : Voice := { v with busy := true }

@[simp] theorem started_append (es es' : List Effect) :
    started (es ++ es') = started es ++ started es' := List.filterMap_append

namespace Jukebox

/-- Carries an order out. -/
def perform (j : Jukebox) : Order → Jukebox × List Effect
  | .init frequency size channels buffer => j.init frequency size channels buffer
  | .quit => j.quit
  | .register disk cue => ((j.register disk cue).jukebox, (j.register disk cue).effects)
  | .load disk path => ((j.load disk path).jukebox, (j.load disk path).effects)
  | .play name => j.play name
  | .stop name => j.stop name
  | .switchTheme name => j.switchTheme name
  | .stopAll => j.stopAll
  | .setMaster volume => (j.setMaster volume, [])
  | .finish name => ((j.finish (.str name)).toOption.getD j, [])

/-- The jukebox after orders. -/
def after (j : Jukebox) (orders : List Order) : Jukebox :=
  orders.foldl (fun j o => (j.perform o).1) j

/-- The loaded sound under a name. -/
def voice? (j : Jukebox) (name : String) : Option Voice := (j.track? name).bind (·.voice)

section
variable {j : Jukebox} {name other : String}

theorem isPlaying_eq : j.isPlaying name = (j.voice? name).any (·.busy) := rfl

theorem isPlaying_iff : j.isPlaying name = true ↔ ∃ v, j.voice? name = some v ∧ v.busy = true := by
  rw [isPlaying_eq, Option.any_eq_true]

theorem name_of_track? {t : Track} (h : j.track? name = some t) : t.cue.name = name := by
  have hname := List.find?_some h
  simpa using hname

/-! ## What orders make of a voice -/

/-- If every track is changed, and keeps its name, so is the track under a name. -/
theorem track?_map {f : Track → Track} (hf : ∀ t, (f t).cue.name = t.cue.name)
    {tracks : List Track} :
    (tracks.map f).find? (·.cue.name = name) = (tracks.find? (·.cue.name = name)).map f := by
  rw [List.find?_map]
  congr 2
  funext t
  simp only [Function.comp_apply, hf]

theorem voice?_modifyVoice (f : Voice → Voice) :
    (j.modifyVoice name f).voice? other =
      if other = name then (j.voice? name).map f else j.voice? other := by
  have htrack : (j.modifyVoice name f).track? other = (j.track? other).map fun t =>
      if t.cue.name = name then { t with voice := t.voice.map f } else t :=
    track?_map fun t => by split <;> rfl
  unfold voice?
  rw [htrack]
  cases ht : j.track? other with
  | none => split <;> simp_all
  | some t =>
    have hname := name_of_track? ht
    by_cases h : other = name
    · subst h
      simp [hname, ht]
    · simp [hname, h]

/-- What is not playing is at rest. -/
theorem map_atRest (h : j.isPlaying name = false) :
    (j.voice? name).map Voice.atRest = j.voice? name := by
  rw [isPlaying_eq] at h
  cases hv : j.voice? name with
  | none => rfl
  | some v =>
    have hbusy : v.busy = false := by simpa [hv] using h
    simp [Voice.atRest, ← hbusy]

/-- What is playing is going. -/
theorem map_going (h : j.isPlaying name = true) :
    (j.voice? name).map Voice.going = j.voice? name := by
  obtain ⟨v, hv, hbusy⟩ := isPlaying_iff.1 h
  simp [hv, Voice.going, ← hbusy]

/-- To play a cue sets its sound going, if it has one, and no other. -/
theorem voice?_play : (j.play name).1.voice? other =
    if other = name then (j.voice? name).map Voice.going else j.voice? other := by
  have hsilent (h : j.voice? name = none) : j.voice? other =
      if other = name then (j.voice? name).map Voice.going else j.voice? other := by
    split
    · next hname => rw [hname, h]; rfl
    · rfl
  unfold play
  split
  · next h => exact hsilent (by rw [voice?, h]; rfl)
  · next h => exact hsilent (by rw [voice?, h]; rfl)
  · exact voice?_modifyVoice _

theorem started_play : started (j.play name).2 = (j.voice? name).toList.map (·.channel) := by
  unfold play
  split <;> next h => simp [voice?, h, started, notRegistered]

theorem theme_play : (j.play name).1.theme = j.theme := by
  unfold play
  split <;> rfl

/-- To stop a cue brings its sound to rest, and no other. -/
theorem voice?_stop : (j.stop name).1.voice? other =
    if other = name then (j.voice? name).map Voice.atRest else j.voice? other := by
  have hidle (h : j.isPlaying name = false) : j.voice? other =
      if other = name then (j.voice? name).map Voice.atRest else j.voice? other := by
    split
    · next hname => rw [map_atRest h, hname]
    · rfl
  unfold stop
  split
  · next h => exact hidle (by rw [isPlaying, h]; rfl)
  · next t h =>
    split
    · next hfilter =>
      refine hidle ?_
      rw [isPlaying, h, Option.bind_some, Option.any_eq_false]
      simpa [Option.filter_eq_none_iff] using hfilter
    · exact voice?_modifyVoice _

theorem started_stop : started (j.stop name).2 = [] := by
  unfold stop
  split
  · rfl
  · split <;> rfl

theorem theme_stop : (j.stop name).1.theme = j.theme := by
  unfold stop
  split
  · rfl
  · split <;> rfl

/-- Where every track is changed in its sound alone, every sound is so changed. -/
theorem voice?_tracks {j' : Jukebox} {f : Track → Voice → Voice}
    (h : j'.tracks = j.tracks.map fun t => { t with voice := t.voice.map (f t) }) :
    j'.voice? name = (j.track? name).bind fun t => t.voice.map (f t) := by
  have htrack : (j.tracks.map fun t => { t with voice := t.voice.map (f t) }).find?
      (·.cue.name = name) = (j.track? name).map fun t => { t with voice := t.voice.map (f t) } := by
    apply track?_map
    intro t
    rfl
  unfold voice?
  rw [track?, h, htrack]
  cases j.track? name <;> rfl

theorem isPlaying_stopAll : j.stopAll.1.isPlaying name = false := by
  rw [isPlaying_eq, voice?_tracks rfl]
  cases j.track? name with
  | none => rfl
  | some t => cases ht : t.voice <;> simp [ht]

theorem isPlaying_setMaster (volume : Number) :
    (j.setMaster volume).isPlaying name = j.isPlaying name := by
  rw [isPlaying_eq, voice?_tracks rfl, isPlaying_eq, voice?]
  cases j.track? name with
  | none => rfl
  | some t => cases ht : t.voice <;> simp [ht]

theorem isPlaying_play : (j.play name).1.isPlaying other =
    if other = name then (j.voice? name).isSome else j.isPlaying other := by
  rw [isPlaying_eq, voice?_play]
  split
  · cases j.voice? name <;> rfl
  · rfl

theorem isPlaying_stop : (j.stop name).1.isPlaying other =
    if other = name then false else j.isPlaying other := by
  rw [isPlaying_eq, voice?_stop]
  split
  · cases j.voice? name <;> rfl
  · rfl

/-! ## Registrations -/

/-- A cue that is added to the others is not playing yet. -/
theorem isPlaying_add {t : Track} (hnew : j.track? t.cue.name = none)
    (ht : ∀ v, t.voice = some v → v.busy = false) :
    { j with tracks := j.tracks ++ [t] }.isPlaying name = j.isPlaying name := by
  have htrack : { j with tracks := j.tracks ++ [t] }.track? name =
      (j.track? name).or ([t].find? (·.cue.name = name)) := List.find?_append
  unfold isPlaying
  rw [htrack]
  by_cases h : t.cue.name = name
  · subst h
    rw [hnew]
    cases hvoice : t.voice with
    | none => simp [hvoice]
    | some v => simp [hvoice, ht v hvoice]
  · simp [h]

/-- A sound that was loaded has the volume and the channel that were asked for, and is at rest. -/
theorem loadVoice_eq_some {disk : Disk} {master : Float} {channel : Nat} {c : Cue} {v : Voice}
    {effects : List Effect} (h : loadVoice disk master channel c = (.ok (some v), effects)) :
    ∃ samples, v = { samples, volume := c.volume * master, channel } := by
  unfold loadVoice at h
  split at h
  · simp at h
  · simp at h
  · split at h
    · simp at h
    · split at h
      · simp at h
      · simp at h
      · next samples _ =>
        simp only [Prod.mk.injEq, Except.ok.injEq, Option.some.injEq] at h
        exact ⟨samples, h.1.symm⟩

theorem loadVoice_rests {disk : Disk} {master : Float} {channel : Nat} {c : Cue} {v : Voice}
    {effects : List Effect} (h : loadVoice disk master channel c = (.ok (some v), effects)) :
    v.busy = false ∧ v.channel = channel := by
  obtain ⟨samples, rfl⟩ := loadVoice_eq_some h
  exact ⟨rfl, rfl⟩

/-- Nothing is set going between two jukeboxes, and the theme stays. -/
structure Calms (j j' : Jukebox) : Prop where
  theme : j'.theme = j.theme
  playing : ∀ name, j'.isPlaying name = true → j.isPlaying name = true

theorem Calms.refl (j : Jukebox) : j.Calms j := ⟨rfl, fun _ => id⟩

theorem Calms.trans {j₁ j₂ j₃ : Jukebox} (h : j₁.Calms j₂) (h' : j₂.Calms j₃) : j₁.Calms j₃ where
  theme := h'.theme.trans h.theme
  playing name hplaying := h.playing name (h'.playing name hplaying)

/-- What leaves the tracks and the theme alone sets nothing going. -/
theorem Calms.of_tracks {j j' : Jukebox} (htracks : j'.tracks = j.tracks)
    (htheme : j'.theme = j.theme) : j.Calms j' where
  theme := htheme
  playing name hplaying := by
    unfold isPlaying track? at *
    rw [htracks] at hplaying
    exact hplaying

theorem add_calms {t : Track} (hnew : j.track? t.cue.name = none)
    (ht : ∀ v, t.voice = some v → v.busy = false) :
    j.Calms { j with tracks := j.tracks ++ [t] } where
  theme := rfl
  playing name hplaying := by rwa [isPlaying_add hnew ht] at hplaying

theorem reserve_tracks (channel : Nat) :
    (j.reserve channel).1.tracks = j.tracks ∧ (j.reserve channel).1.theme = j.theme := by
  unfold reserve
  split <;> exact ⟨rfl, rfl⟩

theorem register_calms (disk : Disk) (c : Cue) : j.Calms (j.register disk c).jukebox := by
  unfold register
  split
  · exact .refl j
  · next hnew =>
    have hsilent : j.Calms { j with tracks := j.tracks ++ [⟨c, none⟩] } :=
      add_calms hnew (by simp)
    split
    · dsimp only
      split
      · exact hsilent
      · exact hsilent
      · next v effects hload =>
        obtain ⟨htracks, htheme⟩ := j.reserve_tracks j.tracks.length
        have hreserve : j.Calms (j.reserve j.tracks.length).1 := .of_tracks htracks htheme
        refine hreserve.trans (add_calms ?_ ?_)
        · rw [track?, htracks]
          exact hnew
        · rintro v' hv'
          cases hv'
          exact (loadVoice_rests hload).1
    · exact hsilent

theorem registerAll_calms (disk : Disk) (path : Files.Path) (count : Nat) (entries : List Json) :
    j.Calms (registerAll disk path count entries j).jukebox := by
  induction entries generalizing j count with
  | nil => exact .refl j
  | cons entry entries ih =>
    unfold registerAll
    split
    · exact ih count
    · next c _ =>
      have hregister := register_calms (j := j) disk (resolve path.parent c)
      dsimp only
      split
      · exact hregister
      · exact hregister.trans (ih _)

theorem load_calms (disk : Disk) (path : Files.Path) : j.Calms (j.load disk path).jukebox := by
  unfold load
  split
  · split <;> exact .refl j
  · split
    · exact .refl j
    · exact .refl j
    · split
      · exact .refl j
      · exact registerAll_calms disk path 0 _

/-! ## Orders that start nothing -/

theorem stop_calms (name : String) : j.Calms (j.stop name).1 where
  theme := theme_stop
  playing other hplaying := by
    rw [isPlaying_stop] at hplaying
    split at hplaying
    · cases hplaying
    · exact hplaying

theorem stopAll_calms : j.Calms j.stopAll.1 where
  theme := rfl
  playing other hplaying := by
    rw [isPlaying_stopAll] at hplaying
    cases hplaying

theorem quit_calms : j.Calms j.quit.1 :=
  stopAll_calms.trans (.of_tracks rfl rfl)

theorem init_calms (frequency size channels buffer : Json) :
    j.Calms (j.init frequency size channels buffer).1 := by
  unfold init
  split
  · exact .of_tracks rfl rfl
  · split <;> exact .of_tracks rfl rfl

theorem finish_calms (name : String) : j.Calms ((j.finish (.str name)).toOption.getD j) := by
  unfold finish
  simp only
  split
  · refine ⟨rfl, fun other hplaying => ?_⟩
    simp only [Except.toOption, Option.getD_some] at hplaying
    rw [isPlaying_eq, voice?_modifyVoice] at hplaying
    split at hplaying
    · cases hv : j.voice? name <;> simp [hv] at hplaying
    · exact hplaying
  · exact .refl j

/-- **Only two orders start something:** to play a cue and to switch the theme. No other sets
anything going, and none changes the theme. -/
theorem perform_calms {o : Order} (hplay : ∀ name, o ≠ .play name)
    (hswitch : ∀ name, o ≠ .switchTheme name) : j.Calms (j.perform o).1 := by
  cases o with
  | init frequency size channels buffer => exact init_calms ..
  | quit => exact quit_calms
  | register disk cue => exact register_calms disk cue
  | load disk path => exact load_calms disk path
  | play name => exact absurd rfl (hplay name)
  | stop name => exact stop_calms name
  | switchTheme name => exact absurd rfl (hswitch name)
  | stopAll => exact stopAll_calms
  | setMaster volume => exact ⟨rfl, fun name h => by rwa [← isPlaying_setMaster volume]⟩
  | finish name => exact finish_calms name

end
end Jukebox
end VisualNovel.Sound
