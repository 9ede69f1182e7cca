import Mathlib.Data.List.Induction
import VisualNovel.Proofs.Sound.Orders
/-!
# Themes

To switch the theme brings the theme before to rest and sets the new one going, unless that is
playing already. What it makes of every sound is written down in one equation (`voice?_switchTheme`),
and so are the channels that it starts (`started_switchTheme`).

Results:
* `themes_are_exclusive`: what a switch comes to wherever a jukebox may be, and that where cues are
  started by switches alone, nothing but the theme is playing.
-/
namespace VisualNovel.Sound
namespace Jukebox

/-- The theme that a name stands for: blanks around it do not count, and a blank name is none. -/
def themeOf (name : String) : Option String :=
  if Text.trimString name = "" then none else some (Text.trimString name)

/-- The theme that a switch to a name brings to rest. -/
def outgoing? (j : Jukebox) (name : String) : Option String :=
  j.theme.filter fun p => p ≠ "" ∧ p ≠ Text.trimString name ∧ j.isPlaying p

/-- Brings the theme before to rest. -/
def fade (name : String) (j : Jukebox) : Jukebox × List Effect :=
  (j.outgoing? name).elim (j, []) fun p => j.stop p

/-- Sets a theme going, unless it is playing. -/
def raise (j : Jukebox) (theme : Option String) : Jukebox × List Effect :=
  (theme.filter fun n => !j.isPlaying n).elim (j, []) fun n => j.play n

variable {j : Jukebox} {name other : String}

theorem themeOf_ne_blank : themeOf name ≠ some "" := by
  unfold themeOf
  split
  · simp
  · next h => simpa using h

theorem raise_themeOf (name : String) (j : Jukebox) :
    (if Text.trimString name ≠ "" ∧ !j.isPlaying (Text.trimString name) then
      j.play (Text.trimString name) else (j, [])) = j.raise (themeOf name) := by
  unfold raise themeOf
  by_cases hblank : Text.trimString name = ""
  · rw [if_neg (fun h => h.1 hblank), if_pos hblank]
    rfl
  · rw [if_neg hblank]
    simp only [Option.filter_some, ne_eq, hblank, not_false_eq_true, true_and]
    split <;> rfl

/-- To switch the theme is to fade out the one before and to raise the new one. -/
theorem switchTheme_eq (name : String) (j : Jukebox) :
    j.switchTheme name =
      ((raise { (j.fade name).1 with theme := themeOf name } (themeOf name)).1,
        (j.fade name).2 ++ (raise { (j.fade name).1 with theme := themeOf name } (themeOf name)).2 ++
          [.notice ⟨.themeSwitched, .theme (themeOf name) j.theme⟩]) := by
  simp only [← raise_themeOf]
  unfold switchTheme fade outgoing?
  cases j.theme with
  | none => rfl
  | some p =>
    simp only [Option.filter_some, decide_eq_true_eq]
    by_cases hstop : p ≠ "" ∧ p ≠ Text.trimString name ∧ j.isPlaying p = true
    · simp only [if_pos hstop]
      rfl
    · simp only [if_neg hstop]
      rfl

/-! ## What a switch makes of the sounds -/

theorem voice?_fade : (j.fade name).1.voice? other =
    if j.outgoing? name = some other then (j.voice? other).map Voice.atRest
    else j.voice? other := by
  unfold fade
  cases hout : j.outgoing? name with
  | none => simp
  | some p =>
    rw [Option.elim_some, voice?_stop]
    by_cases h : other = p
    · simp [h]
    · simp [h, Ne.symm h]

theorem started_fade : started (j.fade name).2 = [] := by
  unfold fade
  cases j.outgoing? name with
  | none => rfl
  | some p => exact started_stop

theorem theme_fade : (j.fade name).1.theme = j.theme := by
  unfold fade
  cases j.outgoing? name with
  | none => rfl
  | some p => exact theme_stop

/-- The new theme is not the one that is brought to rest. -/
theorem outgoing?_ne_themeOf (h : themeOf name = some other) : j.outgoing? name ≠ some other := by
  intro hout
  unfold outgoing? at hout
  unfold themeOf at h
  obtain ⟨-, hother⟩ := Option.filter_eq_some_iff.1 hout
  split at h
  · cases h
  · cases h
    simp at hother

theorem voice?_raise {theme : Option String} : (j.raise theme).1.voice? other =
    if theme = some other then (j.voice? other).map Voice.going else j.voice? other := by
  unfold raise
  cases theme with
  | none => simp
  | some n =>
    rw [Option.filter_some]
    cases hplaying : j.isPlaying n with
    | true =>
      by_cases h : n = other
      · subst h
        simp [map_going hplaying]
      · simp [h]
    | false =>
      simp only [Bool.not_false, if_true, Option.elim_some, voice?_play]
      by_cases h : other = n
      · simp [h]
      · simp [h, Ne.symm h]

theorem theme_raise {theme : Option String} : (j.raise theme).1.theme = j.theme := by
  unfold raise
  cases theme.filter fun n => !j.isPlaying n with
  | none => rfl
  | some n => exact theme_play

theorem started_raise {theme : Option String} : started (j.raise theme).2 =
    ((theme.bind j.voice?).filter (!·.busy)).toList.map (·.channel) := by
  unfold raise
  cases theme with
  | none => rfl
  | some n =>
    rw [Option.filter_some, Option.bind_some, isPlaying_eq]
    cases hv : j.voice? n with
    | none => simp [started_play, hv]
    | some v =>
      cases hbusy : v.busy with
      | true => simp [hbusy, started]
      | false => simp [started_play, hv, hbusy, Option.filter_some]

theorem theme_switchTheme : (j.switchTheme name).1.theme = themeOf name := by
  rw [switchTheme_eq]
  exact theme_raise

/-- A switch sets the new theme going and brings the one before to rest, and leaves all other sounds
as they are. -/
theorem voice?_switchTheme : (j.switchTheme name).1.voice? other =
    if themeOf name = some other then (j.voice? other).map Voice.going
    else if j.outgoing? name = some other then (j.voice? other).map Voice.atRest
    else j.voice? other := by
  have hfade : { (j.fade name).1 with theme := themeOf name }.voice? other =
      (j.fade name).1.voice? other := rfl
  rw [switchTheme_eq, voice?_raise, hfade, voice?_fade]
  split
  · next h => rw [if_neg (outgoing?_ne_themeOf h)]
  · rfl

/-- A switch starts the new theme if it is loaded and not playing, and nothing else. -/
theorem started_switchTheme : started (j.switchTheme name).2 =
    (((themeOf name).bind j.voice?).filter (!·.busy)).toList.map (·.channel) := by
  have hvoice : (themeOf name).bind { (j.fade name).1 with theme := themeOf name }.voice? =
      (themeOf name).bind j.voice? := by
    cases htheme : themeOf name with
    | none => rfl
    | some n =>
      rw [Option.bind_some, Option.bind_some]
      have hfade : (j.fade name).1.voice? n = j.voice? n := by
        rw [voice?_fade, if_neg (outgoing?_ne_themeOf htheme)]
      exact hfade
  rw [switchTheme_eq, started_append, started_append, started_fade, started_raise, hvoice]
  simp [started]

theorem isPlaying_switchTheme : (j.switchTheme name).1.isPlaying other =
    if themeOf name = some other then (j.voice? other).isSome
    else if j.outgoing? name = some other then false
    else j.isPlaying other := by
  rw [isPlaying_eq, voice?_switchTheme]
  split
  · cases j.voice? other <;> rfl
  · split
    · cases j.voice? other <;> rfl
    · rfl

/-! ## What is playing -/

/-- The theme before is not playing after a switch to another one. -/
theorem not_isPlaying_of_theme (hother : j.theme = some other) (hblank : other ≠ "")
    (hne : themeOf name ≠ some other) : (j.switchTheme name).1.isPlaying other = false := by
  rw [isPlaying_switchTheme, if_neg hne]
  split
  · rfl
  · next hout =>
    rw [← Bool.not_eq_true]
    intro hplaying
    refine hout (Option.filter_eq_some_iff.2 ⟨hother, ?_⟩)
    have htrim : other ≠ Text.trimString name := by
      intro h
      refine hne ?_
      unfold themeOf
      rw [← h, if_neg hblank]
    simp [hblank, htrim, hplaying]

/-- What a switch to a name comes to: the name without blanks around it is the theme, or there is
none. -/
structure Switches (j : Jukebox) (name : String) : Prop where
  theme : (j.switchTheme name).1.theme = themeOf name
  /-- The theme before is not playing, unless it is the theme again. -/
  previous : ∀ p, j.theme = some p → themeOf name ≠ some p →
    (j.switchTheme name).1.isPlaying p = false
  /-- The theme is playing if it is loaded. -/
  current : ∀ n v, themeOf name = some n → j.voice? n = some v →
    (j.switchTheme name).1.isPlaying n = true
  /-- What is neither the theme nor the theme before goes on or stays at rest. -/
  others : ∀ n, themeOf name ≠ some n → j.theme ≠ some n →
    (j.switchTheme name).1.isPlaying n = j.isPlaying n
  /-- The channel of the theme receives a call to play if the theme is loaded and was not playing;
  there is no other call to play. -/
  starts : started (j.switchTheme name).2 =
    (((themeOf name).bind j.voice?).filter (!·.busy)).toList.map (·.channel)
  /-- A second switch to the same name starts nothing. -/
  again : started ((j.switchTheme name).1.switchTheme name).2 = []

/-- The theme is never a blank name. -/
theorem switches (hblank : j.theme ≠ some "") (name : String) : j.Switches name where
  theme := theme_switchTheme
  previous p hp hne := by
    refine not_isPlaying_of_theme hp ?_ hne
    rintro rfl
    exact hblank hp
  current n v hn hv := by rw [isPlaying_switchTheme, if_pos hn, hv]; rfl
  others n hn hp := by
    rw [isPlaying_switchTheme, if_neg hn, if_neg]
    intro hout
    exact hp (Option.filter_eq_some_iff.1 hout).1
  starts := started_switchTheme
  again := by
    rw [started_switchTheme]
    cases htheme : themeOf name with
    | none => rfl
    | some n =>
      rw [Option.bind_some, voice?_switchTheme, if_pos htheme]
      cases j.voice? n <;> rfl

theorem perform_theme_ne_blank (h : j.theme ≠ some "") (o : Order) :
    (j.perform o).1.theme ≠ some "" := by
  by_cases hplay : ∃ n, o = .play n
  · obtain ⟨n, rfl⟩ := hplay
    intro hblank
    exact h (theme_play.symm.trans hblank)
  by_cases hswitch : ∃ n, o = .switchTheme n
  · obtain ⟨n, rfl⟩ := hswitch
    intro hblank
    exact themeOf_ne_blank (theme_switchTheme.symm.trans hblank)
  · rw [(perform_calms (fun n hn => hplay ⟨n, hn⟩) (fun n hn => hswitch ⟨n, hn⟩)).theme]
    exact h

theorem after_snoc (j : Jukebox) (orders : List Order) (o : Order) :
    j.after (orders ++ [o]) = ((j.after orders).perform o).1 := by
  unfold after
  rw [List.foldl_append]
  rfl

theorem after_theme_ne_blank (h : j.theme ≠ some "") (orders : List Order) :
    (j.after orders).theme ≠ some "" := by
  induction orders using List.reverseRecOn with
  | nil => exact h
  | append_singleton orders o ih =>
    rw [after_snoc]
    exact perform_theme_ne_blank ih o

/-- Nothing but the theme is playing. -/
def OnlyTheme (j : Jukebox) : Prop := ∀ n, j.isPlaying n = true → j.theme = some n

theorem Calms.onlyTheme {j' : Jukebox} (h : j.Calms j') (hj : j.OnlyTheme) : j'.OnlyTheme := by
  intro n hn
  rw [h.theme]
  exact hj n (h.playing n hn)

/-- A switch leaves nothing but the theme playing where nothing but the theme was. -/
theorem switchTheme_onlyTheme (hblank : j.theme ≠ some "") (hj : j.OnlyTheme) :
    (j.switchTheme name).1.OnlyTheme := by
  intro n hn
  rw [theme_switchTheme]
  refine Classical.byContradiction fun hne => ?_
  have hswitches := switches hblank name
  by_cases hp : j.theme = some n
  · rw [hswitches.previous n hp hne] at hn
    cases hn
  · rw [hswitches.others n hne hp] at hn
    exact hp (hj n hn)

theorem perform_onlyTheme (hblank : j.theme ≠ some "") (hj : j.OnlyTheme) {o : Order}
    (hplay : ∀ n, o ≠ .play n) : (j.perform o).1.OnlyTheme := by
  by_cases hswitch : ∃ n, o = .switchTheme n
  · obtain ⟨n, rfl⟩ := hswitch
    exact switchTheme_onlyTheme hblank hj
  · exact (perform_calms hplay fun n hn => hswitch ⟨n, hn⟩).onlyTheme hj

theorem after_onlyTheme (hblank : j.theme ≠ some "") (hj : j.OnlyTheme) {orders : List Order}
    (hplay : ∀ n, .play n ∉ orders) : (j.after orders).OnlyTheme := by
  induction orders using List.reverseRecOn with
  | nil => exact hj
  | append_singleton orders o ih =>
    rw [after_snoc]
    refine perform_onlyTheme (after_theme_ne_blank hblank orders) (ih ?_) ?_
    · intro n hn
      exact hplay n (List.mem_append_left _ hn)
    · rintro n rfl
      exact hplay n (by simp)

/-- **Themes are exclusive.** Wherever orders of any kind have led a jukebox, a switch makes the
given name the theme, brings the theme before to rest and starts the new one once, and only if it is
not playing already. As long as cues are started by switches alone, nothing but the theme is ever
playing. -/
theorem themes_are_exclusive (mixer : Mixer) (orders : List Order) :
    let j : Jukebox := (Jukebox.mk mixer [] none 1 false).after orders
    (∀ name, j.Switches name) ∧ ((∀ n, .play n ∉ orders) → j.OnlyTheme) := by
  have hblank : (Jukebox.mk mixer [] none 1 false).theme ≠ some "" := by simp
  constructor
  · intro name
    exact switches (after_theme_ne_blank hblank orders) name
  · intro hplay
    refine after_onlyTheme hblank ?_ hplay
    intro n hn
    cases hn

/-- In a hall two cues are registered, of which one can be loaded and is switched to. -/
def hallOrders : List Order :=
  let disk : Files.Disk := [⟨.ofString "hall.wav", .bytes "[0, 1]".toUTF8⟩]
  [.init (.int 44100) (.int (-16)) (.int 2) (.int 512),
    .register disk ⟨"Hall", "hall.wav", 1, 1, true⟩,
    .register disk ⟨"Rain", "rain.wav", 1, 1, true⟩, .switchTheme " Hall "]

/-- In the hall the theme is playing, and nothing else. -/
theorem hall_theme_is_exclusive :
    (∀ n, .play n ∉ hallOrders) ∧
      ((Jukebox.mk {} [] none 1 false).after hallOrders).isPlaying "Hall" = true ∧
      ((Jukebox.mk {} [] none 1 false).after hallOrders).OnlyTheme := by
  have hplay : ∀ n, .play n ∉ hallOrders := by
    intro n
    simp [hallOrders]
  exact ⟨hplay, rfl, (themes_are_exclusive {} hallOrders).2 hplay⟩

end Jukebox
end VisualNovel.Sound
