import VisualNovel.Json.Value
import VisualNovel.Number.Text
import VisualNovel.Text.Halves
/-!
# Sound cues

A cue is a named sound: a clip, a volume from 0 to 1, a positive pitch, and whether it is looped. It
is read from a JSON object with these members and no others; name and clip are required. A number
may be given as a truth value or as text, a truth value as 0 or 1 or as one of a few words. All
members that are at fault are named together.
-/
namespace VisualNovel.Sound

/-- A named sound. -/
structure Cue where
  name : String
  clip : String
  volume : Float := 1
  pitch : Float := 1
  loop : Bool := false

/-- How often a cue is repeated: without end, or not at all. -/
def Cue.loops (c : Cue) : Int := if c.loop then -1 else 0

/-- A number, lenient about how it is given. -/
def lenientFloat? : Json → Option Float
  | .int n => let x := Number.ofInt n; if x.isInf then none else some x
  | .real x => some x
  | .bool b => some (if b then 1 else 0)
  | .str s => Number.ofText? s
  | _ => none

/-- The truth value an integer stands for. -/
def truthOfInt? (n : Int) : Option Bool :=
  if n = 0 then some false else if n = 1 then some true else none

/-- The truth value a word stands for. -/
def truthOfWord? (s : String) : Option Bool :=
  let w := s.toLower
  if ["0", "f", "n", "no", "off", "false"].contains w then some false
  else if ["1", "t", "y", "yes", "on", "true"].contains w then some true
  else none

/-- A truth value, lenient about how it is given. -/
def lenientBool? : Json → Option Bool
  | .bool b => some b
  | .int n => truthOfInt? n
  | .real x => if x == 0 then some false else if x == 1 then some true else none
  | .str s => truthOfWord? s
  | _ => none

/-- A name: a string that is not empty and holds no half of a pair. -/
def cueName? : Json → Option String
  | .str s => if s = "" || !Text.isWhole s then none else some s
  | _ => none

/-- A volume from 0 to 1. -/
def volume? (j : Json) : Option Float := (lenientFloat? j).filter fun x => 0 ≤ x && x ≤ 1

/-- A positive pitch. -/
def pitch? (j : Json) : Option Float := (lenientFloat? j).filter fun x => 0 < x

namespace Cue

/-- The members of a cue. -/
def fields : List String := ["name", "clip", "volume", "pitch", "loop"]

/-- Gives a member of a cue another value, if that is a valid one. -/
def set? (field : String) (value : Json) (c : Cue) : Option Cue :=
  match field with
  | "name" => (cueName? value).map fun v => { c with name := v }
  | "clip" => value.str?.map fun v => { c with clip := v }
  | "volume" => (volume? value).map fun v => { c with volume := v }
  | "pitch" => (pitch? value).map fun v => { c with pitch := v }
  | "loop" => (lenientBool? value).map fun v => { c with loop := v }
  | _ => none

/-- What can be asked of a cue, but follows from its members or from its being a cue. -/
def derived : List String :=
  ["loops", "model_extra", "model_fields_set", "__fields__", "__fields_set__", "__weakref__",
    "__signature__", "__class_vars__", "__private_attributes__"]

/-- What a cue is made of; only a thing of the same kind could take its place. -/
def inborn : List String := ["__class__", "__dict__"]

/-- Gives a member of a cue another value; nothing if that is not a valid one. What follows from the
members cannot be set, and no value fits what the cue is made of; any other name with an underscore
in front is not looked at. -/
def assign (field : String) (value : Json) (c : Cue) : Except Misfit (Option Cue) :=
  if field ∈ derived then .error .part
  else if field ∈ inborn then .error .kind
  else if field.toList.head? = some '_' then .ok (some c)
  else .ok (c.set? field value)

/-- Gives members of a cue their values; the result has the names of those that are at fault. -/
def setAll : List (String × Json) → Cue → Cue × List String
  | [], c => (c, [])
  | (field, value) :: rest, c =>
    match c.set? field value with
    | some c => setAll rest c
    | none =>
      let (c, faults) := setAll rest c
      (c, field :: faults)

/-- Reads a cue; fails with the names at fault in ascending order, or with the empty name if there
is no object. -/
def ofJson : Json → Except (List String) Cue
  | .obj members =>
    let (c, faults) := setAll members ⟨"", "", 1, 1, false⟩
    let missing := ["name", "clip"].filter fun f => (members.lookup f).isNone
    match missing ++ faults with
    | [] => .ok c
    | faults => .error (faults.mergeSort fun a b => !(b < a))
  | _ => .error [""]

end Cue
end VisualNovel.Sound
