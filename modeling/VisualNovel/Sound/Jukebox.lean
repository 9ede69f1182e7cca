import VisualNovel.Fault
import VisualNovel.Files.Disk
import VisualNovel.Json.Access
import VisualNovel.Json.Reader
import VisualNovel.Json.Shown
import VisualNovel.Notice
import VisualNovel.Sound.Cue
import VisualNovel.Sound.Samples
import VisualNovel.Text.Blank
/-!
# The jukebox

The jukebox keeps the cues that were registered, in the order of their registration; the first cue
under a name stays. A cue that could be loaded has a channel of the mixer for itself, the one with
the number of its place. One looping cue counts as the theme. The volume of every loaded sound is
that of its cue times the master volume.

What reaches the mixer, the bus and the log is an effect; every operation gives its effects in
order.
-/
namespace VisualNovel.Sound
open Files

/-- What is asked of the mixer. -/
inductive MixerCall where
  | init (frequency size channels buffer : Json)
  | quit
  | setChannels (count : Nat)
  | play (channel : Nat) (loops : Int)
  | stop (channel : Nat)

/-- What an operation does to the outside. -/
inductive Effect where
  | mixer (c : MixerCall)
  | notice (n : Notice)
  | log (e : Log.Entry)

/-- The mixer. -/
structure Mixer where
  ready : Bool := true
  /-- Why it cannot be made ready. -/
  fault : Option String := none
  channels : Nat := 8

/-- A loaded sound: its samples, its volume, its channel, and whether that is playing. -/
structure Voice where
  samples : Samples
  volume : Float
  channel : Nat
  busy : Bool := false

/-- A registered cue, and its sound if it could be loaded. -/
structure Track where
  cue : Cue
  voice : Option Voice := none

/-- The registered cues, the mixer, the theme and the master volume. -/
structure Jukebox where
  mixer : Mixer := {}
  tracks : List Track := []
  theme : Option String := none
  master : Float := 1
  initialized : Bool := false

namespace Jukebox

/-- The track under a name. -/
def track? (j : Jukebox) (name : String) : Option Track := j.tracks.find? (·.cue.name = name)

/-- The names of the cues, in the order of their registration. -/
def names (j : Jukebox) : List String := j.tracks.map (·.cue.name)

/-- Changes the sound of the track under a name. -/
def modifyVoice (name : String) (f : Voice → Voice) (j : Jukebox) : Jukebox :=
  { j with tracks := j.tracks.map fun t =>
      if t.cue.name = name then { t with voice := t.voice.map f } else t }

/-- Makes the mixer ready; without a mixer the jukebox stays silent. -/
def init (frequency size channels buffer : Json) (j : Jukebox) : Jukebox × List Effect :=
  if j.mixer.ready then ({ j with initialized := true }, [])
  else
    let call := Effect.mixer (.init frequency size channels buffer)
    match j.mixer.fault with
    | some m => (j, [call, .log (Log.error ("Failed to initialize audio system: " ++ m))])
    | none =>
      ({ j with mixer := { j.mixer with ready := true }, initialized := true },
        [call, .log (Log.info "Audio system initialized.")])

/-- The call that starts the mixer as games do. -/
def initDefault (j : Jukebox) : Jukebox × List Effect :=
  j.init (.int 44100) (.int (-16)) (.int 2) (.int 512)

/-- Whether the cue under a name is playing. -/
def isPlaying (j : Jukebox) (name : String) : Bool :=
  ((j.track? name).bind (·.voice)).any (·.busy)

/-- The channels that are playing, in the order of the cues. -/
def busyChannels (j : Jukebox) : List Nat :=
  j.tracks.filterMap fun t => (t.voice.filter (·.busy)).map (·.channel)

/-- Stops every cue that is playing. -/
def stopAll (j : Jukebox) : Jukebox × List Effect :=
  ({ j with tracks := j.tracks.map fun t =>
      { t with voice := t.voice.map fun v => { v with busy := false } } },
    j.busyChannels.map fun c => .mixer (.stop c))

/-- Stops every cue and lets go of the mixer. -/
def quit (j : Jukebox) : Jukebox × List Effect :=
  let (j, effects) := j.stopAll
  ({ j with mixer := { j.mixer with ready := false }, initialized := false },
    effects ++ [.mixer .quit])

/-- The samples that bytes write, if they write some. -/
def samplesOf? (data : ByteArray) : Option Samples :=
  (String.fromUTF8? data).bind fun text => (Json.parse text).toOption.bind Samples.ofJson?

/-- The samples of a cue at its pitch, if its clip holds some. -/
def samplesAt (pitch : Float) (data : ByteArray) : Except Misfit (Option Samples) :=
  match samplesOf? data with
  | none => .ok none
  | some samples => if pitch != 1 then (samples.speedUp pitch).map some else .ok (some samples)

/-- Loads the clip of the cue at a place. The result has the sound, if there is one. -/
def loadVoice (disk : Disk) (master : Float) (channel : Nat) (c : Cue) :
    Except Fault (Option Voice) × List Effect :=
  match disk.exists_ (.ofString c.clip) with
  | .error e => (.error (.file e), [])
  | .ok false => (.ok none, [.log (Log.warning ("Audio file not found: " ++ c.clip))])
  | .ok true =>
    match disk.readAt c.clip with
    | .error e => (.error (.file e), [])
    | .ok data =>
      match samplesAt c.pitch data with
      | .error e => (.error (.misfit e), [])
      | .ok none =>
        (.ok none, [.log (Log.error
          ("Failed to load sound " ++ c.clip ++ ": Unrecognized audio format"))])
      | .ok (some samples) => (.ok (some { samples, volume := c.volume * master, channel }), [])

/-- Sees to it that the mixer has a channel. -/
def reserve (channel : Nat) (j : Jukebox) : Jukebox × List Effect :=
  if j.mixer.channels ≤ channel then
    ({ j with mixer := { j.mixer with channels := channel + 1 } },
      [.mixer (.setChannels (channel + 1))])
  else (j, [])

/-- What came of a registration. -/
structure Registration where
  jukebox : Jukebox
  effects : List Effect
  /-- Whether the cue was kept, or why the registration broke off. -/
  kept : Except Fault Bool

/-- Registers a cue and loads its clip. -/
def register (disk : Disk) (c : Cue) (j : Jukebox) : Registration :=
  match j.track? c.name with
  | some _ =>
    ⟨j, [.log (Log.warning
      ("Duplicate sound name '" ++ c.name ++ "', keeping the first registration"))], .ok false⟩
  | none =>
    let place := j.tracks.length
    let add (voice : Option Voice) (j : Jukebox) : Jukebox :=
      { j with tracks := j.tracks ++ [⟨c, voice⟩] }
    if j.initialized then
      match loadVoice disk j.master place c with
      | (.error e, effects) => ⟨add none j, effects, .error e⟩
      | (.ok none, effects) => ⟨add none j, effects, .ok true⟩
      | (.ok (some v), effects) =>
        let (j, more) := j.reserve place
        ⟨add (some v) j, effects ++ more, .ok true⟩
    else ⟨add none j, [], .ok true⟩

/-- What came of a sound list: the number of cues registered, or why it broke off. -/
structure Loading where
  jukebox : Jukebox
  effects : List Effect
  count : Except Fault Nat

/-- A cue of a list in a folder; a relative clip is seen from the folder. -/
def resolve (folder : Files.Path) (c : Cue) : Cue :=
  let clip := Files.Path.ofString c.clip
  if clip.isAbsolute then c else { c with clip := (folder.join clip).toString }

/-- Registers the cues of a list. -/
def registerAll (disk : Disk) (path : Files.Path) (count : Nat) : List Json → Jukebox → Loading
  | [], j => ⟨j, [], .ok count⟩
  | entry :: entries, j =>
    match Cue.ofJson entry with
    | .error _ =>
      let r := registerAll disk path count entries j
      let report := Effect.log (Log.error ("Invalid sound entry in " ++ path.toString))
      { r with effects := report :: r.effects }
    | .ok c =>
      let r := j.register disk (resolve path.parent c)
      match r.kept with
      | .error e => ⟨r.jukebox, r.effects, .error e⟩
      | .ok kept =>
        let rest := registerAll disk path (if kept then count + 1 else count) entries r.jukebox
        { rest with effects := r.effects ++ rest.effects }

/-- Registers the cues of the sound list in a file. -/
def load (disk : Disk) (path : Files.Path) (j : Jukebox) : Loading :=
  let failed : Loading :=
    ⟨j, [.log (Log.error ("Failed to load sound list " ++ path.toString))], .ok 0⟩
  match disk.readText path with
  | .error e => if e.isSystem then failed else ⟨j, [], .error (.file e)⟩
  | .ok text =>
    match Json.parse text with
    | .error .notJson => failed
    | .error (.misfit e) => ⟨j, [], .error (.misfit e)⟩
    | .ok value =>
      match value.entries? with
      | none => ⟨j, [], .error (.misfit .kind)⟩
      | some entries => registerAll disk path 0 entries j

/-- The report that a name has no cue. -/
def notRegistered (name : String) : Effect :=
  .log (Log.warning ("Sound not registered: " ++ name))

/-- Plays a cue from its beginning. -/
def play (name : String) (j : Jukebox) : Jukebox × List Effect :=
  match j.track? name with
  | none => (j, [notRegistered name])
  | some ⟨_, none⟩ =>
    (j, [.log (Log.debug ("Sound '" ++ name ++ "' has no loaded clip, skipping"))])
  | some ⟨c, some v⟩ =>
    (j.modifyVoice name fun v => { v with busy := true },
      [.mixer (.play v.channel c.loops), .notice ⟨.soundPlayed, .sound name⟩])

/-- Stops a cue that is playing. -/
def stop (name : String) (j : Jukebox) : Jukebox × List Effect :=
  match j.track? name with
  | none => (j, [notRegistered name])
  | some t =>
    match t.voice.filter (·.busy) with
    | none => (j, [.log (Log.warning ("Sound isn't playing: " ++ name))])
    | some v =>
      (j.modifyVoice name fun v => { v with busy := false },
        [.mixer (.stop v.channel), .notice ⟨.soundStopped, .sound name⟩])

/-- Does something with the cue that any value names. Only a text can name one; a list or an object
cannot even be looked up. -/
def withCue (f : String → Jukebox → Jukebox × List Effect) (name : Json) (j : Jukebox) :
    Except Misfit (Jukebox × List Effect) :=
  match name with
  | .str n => .ok (f n j)
  | _ => if name.isKey then .ok (j, [notRegistered name.shown]) else .error .kind

/-- Replaces the theme by the cue with a name, blanks around it aside; a blank name turns the theme
off. A theme that is playing already goes on. -/
def switchTheme (name : String) (j : Jukebox) : Jukebox × List Effect :=
  let name := Text.trimString name
  let previous := j.theme
  let (j, stopped) :=
    match previous with
    | some p => if p ≠ "" ∧ p ≠ name ∧ j.isPlaying p then j.stop p else (j, [])
    | none => (j, [])
  let theme := if name = "" then none else some name
  let j := { j with theme }
  let (j, played) := if name ≠ "" ∧ !j.isPlaying name then j.play name else (j, [])
  (j, stopped ++ played ++ [.notice ⟨.themeSwitched, .theme theme previous⟩])

/-- A volume brought into the range from 0 to 1. -/
def clampVolume (volume : Float) : Float :=
  let v := if volume < 1 then volume else 1
  if 0 < v then v else 0

/-- A number brought into the range from 0 to 1. -/
def clampNumber : Number → Float
  | .int n => if 0 < n then 1 else 0
  | .real x => clampVolume x

/-- Sets the master volume and with it the volume of every loaded sound. -/
def setMaster (volume : Number) (j : Jukebox) : Jukebox :=
  let master := clampNumber volume
  { j with
    master
    tracks := j.tracks.map fun t =>
      { t with voice := t.voice.map fun v => { v with volume := t.cue.volume * master } } }

/-- The playback of the cue that a value names comes to its end. There must be such a cue, and it
must have been loaded. -/
def finish (name : Json) (j : Jukebox) : Except Misfit Jukebox :=
  match name with
  | .str n =>
    if ((j.track? n).bind (·.voice)).isSome then
      .ok (j.modifyVoice n fun v => { v with busy := false })
    else .error .part
  | _ => .error (if name.isKey then .part else .kind)

end Jukebox
end VisualNovel.Sound
