import VisualNovel.Json.Value
import VisualNovel.Text.Quoted
/-!
# Writing JSON

Two layouts: one line with `", "` and `": "`, and one item a line with two spaces a level, where
an empty list or object stays `[]` or a pair of braces. Every character outside printable ASCII is
written as an escape, those above U+FFFF as two, and half of such a pair as the one it is. Whether a
text may hold halves is said by the code of its characters: `Text.codeOf` if it may, `Char.toNat` if
all of them stand for themselves. A double is written as its shortest decimal, and what is no
number, or without end, as the word it is read from.
-/
namespace VisualNovel.Json
variable (code : Char → Nat)

/-- The escape of a code unit. -/
def unitEscape (unit : Nat) : List Char := '\\' :: 'u' :: Text.hexDigits 4 unit

/-- One character inside a string. -/
def writeChar (c : Char) : List Char :=
  if c = '"' then ['\\', '"']
  else if c = '\\' then ['\\', '\\']
  else if c = '\n' then ['\\', 'n']
  else if c = '\r' then ['\\', 'r']
  else if c = '\t' then ['\\', 't']
  else if c = '\x08' then ['\\', 'b']
  else if c = '\x0c' then ['\\', 'f']
  else if 0x20 ≤ c.toNat && c.toNat < 0x7f then [c]
  else if code c < 0x10000 then unitEscape (code c)
  else
    let n := c.toNat - 0x10000
    unitEscape (0xd800 + n / 0x400) ++ unitEscape (0xdc00 + n % 0x400)

/-- A string between its quotes. -/
def writeString (s : String) : List Char := '"' :: s.toList.flatMap (writeChar code) ++ ['"']

/-- A double. -/
def writeReal (x : Float) : String :=
  if x.isNaN then "NaN"
  else if x.isInf then if x < 0 then "-Infinity" else "Infinity"
  else Number.shortest x

/-- Lists joined by a separator. -/
def joined (separator : List Char) (parts : List (List Char)) : List Char :=
  (parts.intersperse separator).flatten

/-- How the items of a list or an object are laid out. -/
structure Layout where
  /-- What stands between two items. -/
  separator : (depth : Nat) → List Char
  /-- What stands after the opening bracket. -/
  opening : (depth : Nat) → List Char
  /-- What stands before the closing bracket. -/
  closing : (depth : Nat) → List Char

/-- Everything on one line. -/
def Layout.line : Layout := ⟨fun _ => [',', ' '], fun _ => [], fun _ => []⟩

/-- A line break and the indentation of a level. -/
def newLine (depth : Nat) : List Char := '\n' :: List.replicate (2 * depth) ' '

/-- One item a line, two spaces a level. -/
def Layout.indented : Layout :=
  ⟨fun d => ',' :: newLine (d + 1), fun d => newLine (d + 1), fun d => newLine d⟩

/-- The items of a list or an object between its brackets. -/
def Layout.bracket (l : Layout) (depth : Nat) (left right : Char) (parts : List (List Char)) :
    List Char :=
  if parts.isEmpty then [left, right]
  else left :: l.opening depth ++ joined (l.separator depth) parts ++ l.closing depth ++ [right]

mutual

/-- A value in a layout. -/
def write (l : Layout) (depth : Nat) : Json → List Char
  | null => "null".toList
  | bool true => "true".toList
  | bool false => "false".toList
  | int n => (toString n).toList
  | real x => (writeReal x).toList
  | str s => writeString code s
  | arr items => l.bracket depth '[' ']' (writeItems l (depth + 1) items)
  | obj members => l.bracket depth '\x7b' '\x7d' (writeMembers l (depth + 1) members)

/-- The items of a list. -/
def writeItems (l : Layout) (depth : Nat) : List Json → List (List Char)
  | [] => []
  | item :: items => write l depth item :: writeItems l depth items

/-- The members of an object. -/
def writeMembers (l : Layout) (depth : Nat) : List (String × Json) → List (List Char)
  | [] => []
  | (name, value) :: members =>
    (writeString code name ++ ':' :: ' ' :: write l depth value) :: writeMembers l depth members

end

/-- A value on one line. -/
def toLine (j : Json) : String := .ofList (write Text.codeOf .line 0 j)

end VisualNovel.Json
