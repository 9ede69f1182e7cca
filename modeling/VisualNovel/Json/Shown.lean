import VisualNovel.Json.Value
import VisualNovel.Text.Quoted
/-!
# Values in messages

A message shows a text as it is, and every other value by its words, its digits or its parts. A text
that is part of a list or an object stands between quotes.
-/
namespace VisualNovel.Json

mutual

/-- A value as a message shows it inside another. -/
def shownInside : Json → String
  | null => "None"
  | bool b => if b then "True" else "False"
  | int n => Number.text (.int n)
  | real x => Number.text (.real x)
  | str s => Text.quoted s
  | arr items => "[" ++ ", ".intercalate (shownItems items) ++ "]"
  | obj members => "\x7b" ++ ", ".intercalate (shownMembers members) ++ "\x7d"

/-- The items of a list inside it. -/
def shownItems : List Json → List String
  | [] => []
  | item :: items => shownInside item :: shownItems items

/-- The members of an object inside it. -/
def shownMembers : List (String × Json) → List String
  | [] => []
  | (name, value) :: members =>
    (Text.quoted name ++ ": " ++ shownInside value) :: shownMembers members

end

/-- A value as a message shows it. -/
def shown : Json → String
  | str s => s
  | j => j.shownInside

end VisualNovel.Json
