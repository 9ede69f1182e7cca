import VisualNovel.Files.Error
import VisualNovel.Files.Path
import VisualNovel.Text.Halves
/-!
# Files

A disk holds files and empty directories under the names that lead to them; the directories on
the way to an entry are there too. A step up leads from a directory to the one it lies in; there are
directories above the working directory, but none above the top. A name may have at most 255 bytes
and a path less than 4096, and no path holds the character U+0000. Text is read as strict UTF-8, and
a carriage return, alone or in front of a line feed, reads as a line feed.
-/
namespace VisualNovel.Files

/-- What stands at an entry of the disk. -/
inductive Content where
  | bytes (data : ByteArray)
  | directory

/-- An entry under its path. -/
structure Entry where
  path : Path
  content : Content

/-- The entries of a disk. -/
abbrev Disk := List Entry

/-- Whether a name is a step up. -/
def isStepUp (name : String) : Bool := name = ".."

/-- Where a step up leads to from a place. -/
def Root.above (root : Root) (place : List String) : List String :=
  if place.all isStepUp then if root = .here then place ++ [".."] else [] else place.dropLast

/-- The place that names lead to from another, if what they pass through are directories. -/
def Root.along (root : Root) : (place : List String) → List String → List String
  | place, [] => place
  | place, name :: names =>
    root.along (if isStepUp name then root.above place else place ++ [name]) names

/-- The place a path leads to: a path that steps up at its beginning only. -/
def Path.place (p : Path) : Path := ⟨p.root, p.root.along [] p.names⟩

namespace Disk

/-- What stands at a place. -/
def content? (disk : Disk) (p : Path) : Option Content :=
  match disk.find? (·.path = p) with
  | some e => some e.content
  | none =>
    let leads (e : Entry) : Bool := e.path.root = p.root && p.names.isPrefixOf e.path.names
    if p.names.all isStepUp || disk.any leads then some .directory else none

/-- Whether a name is too long to be looked up. -/
def isTooLong (name : String) : Bool := 255 < name.utf8ByteSize

/-- Walks on from a place. -/
def walk (disk : Disk) (root : Root) : (place : List String) → List String →
    Except FileError Content
  | place, [] => (disk.content? ⟨root, place⟩).elim (.error .notFound) .ok
  | place, name :: names =>
    if isStepUp name then walk disk root (root.above place) names
    else if isTooLong name then .error .nameTooLong
    else
      match disk.content? ⟨root, place ++ [name]⟩ with
      | none => .error .notFound
      | some .directory => walk disk root (place ++ [name]) names
      | some (.bytes data) => if names.isEmpty then .ok (.bytes data) else .error .notDirectory

/-- Refuses a text that can be no path. -/
def check (text : String) : Except FileError Unit :=
  if !Text.isWritable text then .error .unwritable
  else if '\x00' ∈ text.toList then .error .badPath
  else if 4096 ≤ text.utf8ByteSize then .error .nameTooLong
  else .ok ()

/-- What stands under a path. -/
def find (disk : Disk) (p : Path) : Except FileError Content := do
  check p.toString
  walk disk p.root [] p.names

/-- Whether there is something under a path; a name that is too long cannot even be looked up. -/
def exists_ (disk : Disk) (p : Path) : Except FileError Bool :=
  match disk.find p with
  | .ok _ => .ok true
  | .error .nameTooLong => .error .nameTooLong
  | .error _ => .ok false

/-- The bytes of what was found, if it is a file. -/
def bytesOf : Content → Except FileError ByteArray
  | .bytes data => .ok data
  | .directory => .error .isDirectory

/-- The bytes of a file. -/
def read (disk : Disk) (p : Path) : Except FileError ByteArray := disk.find p >>= bytesOf

/-- The bytes of the file under a text that is taken as it is: nothing is no path, and a slash at
the end, also with a dot behind it, asks for a directory. -/
def readAt (disk : Disk) (text : String) : Except FileError ByteArray := do
  check text
  let last := (Text.splitAt '/' text.toList).getLast?.getD []
  if text = "" then .error .notFound
  else
    let found ← disk.find (.ofString text)
    match found with
    | .bytes _ => if last = [] ∨ last = ['.'] then .error .notDirectory else bytesOf found
    | .directory => bytesOf found

/-- Line breaks of every kind as line feeds. -/
def unifyBreaks : List Char → List Char
  | '\r' :: '\n' :: s => '\n' :: unifyBreaks s
  | '\r' :: s => '\n' :: unifyBreaks s
  | c :: s => c :: unifyBreaks s
  | [] => []

/-- The text of bytes. -/
def decode (data : ByteArray) : Except FileError String :=
  match String.fromUTF8? data with
  | some s => .ok (.ofList (unifyBreaks s.toList))
  | none => .error .notText

/-- The text of a file. -/
def readText (disk : Disk) (p : Path) : Except FileError String := disk.read p >>= decode

/-- Whether a file can be written under a path. -/
def checkWrite (disk : Disk) (p : Path) : Except FileError Unit :=
  match disk.find p with
  | .ok (.bytes _) => .ok ()
  | .ok .directory => .error .isDirectory
  | .error .notFound =>
    match disk.find p.parent with
    | .ok .directory => .ok ()
    | .ok (.bytes _) => .error .notDirectory
    | .error e => .error e
  | .error e => .error e

/-- The disk once bytes have been written under a path. -/
def write (disk : Disk) (p : Path) (data : ByteArray) : Disk := ⟨p.place, .bytes data⟩ :: disk

end Disk
end VisualNovel.Files
