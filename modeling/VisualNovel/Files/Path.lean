import VisualNovel.Text.Split
/-!
# Paths

A path is a root and the names behind it. Reading drops empty names and single dots and keeps
double dots; an absolute path on the right of a join is the result.
-/
namespace VisualNovel.Files

/-- Where a path begins. -/
inductive Root where
  /-- The working directory. -/
  | here
  /-- The top of the file system, with one slash or with two. -/
  | top (double : Bool)
  deriving DecidableEq, Repr

/-- A path. -/
structure Path where
  root : Root
  names : List String
  deriving DecidableEq, Repr

namespace Path

/-- Reads a path. -/
def ofString (s : String) : Path :=
  let pieces := (Text.splitAt '/' s.toList).map String.ofList
  let names := pieces.filter fun n => n ≠ "" ∧ n ≠ "."
  let slashes := (s.toList.takeWhile (· = '/')).length
  if 0 < slashes then ⟨.top (slashes = 2), names⟩ else ⟨.here, names⟩

/-- Whether a path does not depend on the working directory. -/
def isAbsolute (p : Path) : Bool := p.root ≠ .here

/-- The text of a path. -/
def toString (p : Path) : String :=
  let tail := "/".intercalate p.names
  match p.root with
  | .here => if p.names.isEmpty then "." else tail
  | .top double => (if double then "//" else "/") ++ tail

/-- A path as seen from a directory. -/
def join (p q : Path) : Path := if q.isAbsolute then q else ⟨p.root, p.names ++ q.names⟩

/-- The directory a path lies in. -/
def parent (p : Path) : Path := ⟨p.root, p.names.dropLast⟩

/-- The last name; empty if there is none. -/
def name (p : Path) : String := p.names.getLast?.getD ""

/-- The stem and the suffix of a name: the suffix starts at the last dot, unless that is the first
or the last character. -/
def splitName (name : String) : String × String :=
  let back := name.toList.reverse
  let suffix := back.takeWhile (· ≠ '.')
  match back.dropWhile (· ≠ '.') with
  | '.' :: stem =>
    if stem.isEmpty || suffix.isEmpty then (name, "")
    else (.ofList stem.reverse, .ofList ('.' :: suffix.reverse))
  | _ => (name, "")

/-- The last name without its suffix. -/
def stem (p : Path) : String := (splitName p.name).1

/-- The suffix of the last name, with its dot. -/
def suffix (p : Path) : String := (splitName p.name).2

/-- A path with another suffix; there must be a name to put it on. -/
def withSuffix? (p : Path) (suffix : String) : Option Path :=
  if p.name = "" then none else some ⟨p.root, p.names.dropLast ++ [p.stem ++ suffix]⟩

end Path
end VisualNovel.Files
