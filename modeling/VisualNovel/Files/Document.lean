import VisualNovel.Files.Disk
import VisualNovel.Json.Access
import VisualNovel.Json.Reader
/-!
# Disks as documents

A disk is an object with a member for each file: a text, or an object with the bytes in hexadecimal
digits under `hex`; any other object is a directory.
-/
namespace VisualNovel.Files

/-- The bytes that pairs of hexadecimal digits write. -/
def hexBytes : List Char → List UInt8
  | a :: b :: rest =>
    let digit (c : Char) : Nat := (Json.hexValue? c).getD 0
    UInt8.ofNat (digit a * 16 + digit b) :: hexBytes rest
  | _ => []

/-- Reads what is under a name. -/
def Content.ofJson : Json → Content
  | .str s => .bytes s.toUTF8
  | j =>
    match j.field "hex" with
    | .str h => .bytes ⟨(hexBytes h.toList).toArray⟩
    | _ => .directory

/-- Reads a disk. -/
def Disk.ofJson (j : Json) : Disk :=
  j.members.map fun (name, content) => ⟨.ofString name, .ofJson content⟩

end VisualNovel.Files
