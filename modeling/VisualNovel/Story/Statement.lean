import VisualNovel.Text.Blank
import VisualNovel.Text.Split
import VisualNovel.Text.WordChar
/-!
# Statements of a script

A script is read line by line, each line without the blanks at its ends. What a line says is seen
from the line alone, in this order:

* nothing, if it is empty or starts with `//`;
* `== name`, with two or more equals signs and any number of them after the name, starts a node;
* `# tag # tag` tags the next line of dialogue;
* `* text -> name` is a choice;
* `-> name` says where the node goes on;
* anything else is a line of dialogue, with tags after its first `#`.

A name consists of word characters.
-/
namespace VisualNovel.Story

/-- What one line of a script says. -/
inductive Statement where
  | nothing
  | node (id : String)
  | tags (tags : List String)
  | choice (text target : String)
  | divert (target : String)
  | dialogue (text : String) (tags : List String)
  deriving DecidableEq, Repr

namespace Statement
open Text

/-- A name at the start of the text, and what follows it and the blanks behind it. -/
def readName? (s : List Char) : Option (String × List Char) :=
  let name := s.takeWhile isWordChar
  if name.isEmpty then none
  else some (.ofList name, trimStart (s.dropWhile isWordChar))

/-- The name that makes up the text, blanks around it aside. -/
def onlyName? (s : List Char) : Option String :=
  match readName? (trimStart s) with
  | some (name, []) => some name
  | _ => none

/-- The node a header starts. -/
def header? (s : List Char) : Option String :=
  if (s.takeWhile (· = '=')).length < 2 then none
  else
    match readName? (trimStart (s.dropWhile (· = '='))) with
    | some (name, rest) =>
      if (trimStart (rest.dropWhile (· = '='))).isEmpty then some name else none
    | none => none

/-- The tags between the `#`s of a text: its pieces that are not blank. -/
def splitTags (s : List Char) : List String :=
  ((splitAt '#' s).map trim).filterMap fun t => if t.isEmpty then none else some (.ofList t)

/-- The text in front of the arrow that points to the name at the end, and that name. -/
def beforeArrow? (s : List Char) : Option (List Char × String) :=
  let back := trimStart s.reverse
  let name := back.takeWhile isWordChar
  match trimStart (back.dropWhile isWordChar) with
  | '>' :: '-' :: body => if name.isEmpty then none else some (body.reverse, .ofList name.reverse)
  | _ => none

/-- The text of a choice: what stands in front of the arrow, trimmed. Of blanks alone the last one
is the text. -/
def choiceText? (body : List Char) : Option String :=
  match trim body with
  | [] => body.getLast?.map fun c => .ofList [c]
  | text => some (.ofList text)

/-- The text and the target of a choice. -/
def choice? : List Char → Option (String × String)
  | '*' :: s => do
    let (body, target) ← beforeArrow? s
    some (← choiceText? body, target)
  | _ => none

/-- The target of a divert. -/
def divert? : List Char → Option String
  | '-' :: '>' :: s => onlyName? s
  | _ => none

/-- What a trimmed line says. -/
def ofTrimmed (s : List Char) : Statement :=
  if s.isEmpty || ['/', '/'].isPrefixOf s then nothing
  else
    match header? s with
    | some id => node id
    | none =>
      if s.head? = some '#' then tags (splitTags s)
      else
        match choice? s with
        | some (text, target) => choice text target
        | none =>
          match divert? s with
          | some target => divert target
          | none =>
            dialogue (.ofList (trim (s.takeWhile (· ≠ '#'))))
              (splitTags ((s.dropWhile (· ≠ '#')).drop 1))

/-- What a line of a script says. -/
def ofLine (s : List Char) : Statement := ofTrimmed (trim s)

end Statement

/-- What the lines of a script say, one statement a line. -/
def statements (text : String) : List Statement :=
  (Text.splitAt '\n' text.toList).map Statement.ofLine

end VisualNovel.Story
