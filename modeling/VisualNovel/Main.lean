import VisualNovel.Json.Reader
import VisualNovel.Json.Writer
import VisualNovel.Loop.Document
/-!
# The command line

With the path of a settings file as its argument the program plays the novel that the file
describes, without one the sample story. The window is the caller's: each line of the input is a
frame, a list of a time in seconds and the device events, and each line of the output is an object
with what the frame left behind. The end of the input closes the window.
-/
namespace VisualNovel.CommandLine

/-- The files in a directory and in those below it, down to a depth. -/
def readTree : (depth : Nat) → (names : List String) → IO Files.Disk
  | 0, _ => pure []
  | depth + 1, names => do
    let mut disk : Files.Disk := []
    for entry in ← (System.mkFilePath ("." :: names)).readDir do
      let names := names ++ [entry.fileName]
      if ← entry.path.isDir then
        disk := disk ++ ⟨⟨.here, names⟩, .directory⟩ :: (← readTree depth names)
      else
        disk := disk ++ [⟨⟨.here, names⟩, .bytes (← IO.FS.readBinFile entry.path)⟩]
    return disk

/-- Writes what a game left behind since the last time. -/
def tell (out : IO.FS.Stream) (g : Game Json) : IO (Game Json) := do
  let record := Json.obj [("trace", .ofList HouseMark.toJson g.house.marks),
    ("log", .ofList Log.Entry.toJson g.house.log)]
  out.putStrLn record.toLine
  out.flush
  return g.forget

/-- Plays the frames of the input until the game ends. -/
partial def run (input out : IO.FS.Stream) (g : Game Json) : IO UInt32 := do
  let line ← input.getLine
  let events := if line.isEmpty then .arr [g.now, .arr [.arr [.str "QUIT"]]]
    else (Json.parse line).toOption.getD .null
  let frame := (Game.framesOfJson (.arr [events])).headD (g.now, [])
  let (g, error) := g.frame frame.1 frame.2
  let g ← tell out g
  if error.isSome then return 1
  if g.house.running then run input out g
  else
    let (g, error) := g.close
    let _ ← tell out g
    return if error.isSome then 1 else 0

/-- The home of the data that comes with the library. -/
def home : Files.Path := ⟨.top false, ["usr", "share", "visual-novel"]⟩

/-- The settings that the arguments name, and the reports on them. -/
def settingsOf (disk : Files.Disk) : List String → Option Settings × List Log.Entry
  | path :: _ =>
    let (settings, log) := Settings.load (.default home) disk (.ofString path)
    (settings.toOption, log)
  | [] => (some (.default home), [])

end VisualNovel.CommandLine

open VisualNovel in
/-- Plays a novel; the result is one if something breaks it off. -/
def main (args : List String) : IO UInt32 := do
  let disk ← CommandLine.readTree 16 []
  match CommandLine.settingsOf disk args with
  | (some settings, log) =>
    CommandLine.run (← IO.getStdin) (← IO.getStdout)
      (settings.open_ CommandLine.home disk log (.real 0)).begin
  | (none, _) => return 1
