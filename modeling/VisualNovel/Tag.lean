import VisualNovel.Stage
import VisualNovel.Text.Blank
import VisualNovel.Text.Quoted
/-!
# Tags

A tag is a text `key: value` that rides along with a line of the story. It holds exactly one colon
and something other than blanks on both sides; the key alone decides what it directs. A tag with
a key that is not known is reported and directs nothing; a malformed one is reported and passed
over, and the tags after it still count.
-/
namespace VisualNovel

/-- What a tag asks for. -/
inductive Directive where
  | speaker (name : String)
  | expression (character portrait : String)
  | splash (backdrop : String)
  | playSound (sound : String)
  | stopSound (sound : String)
  | switchTheme (sound : String)
  | unknown (key value : String)
  deriving DecidableEq, Repr

/-- A text that is no tag. -/
structure MalformedTag where
  raw : String
  deriving DecidableEq, Repr

/-- The words for a text that is no tag. -/
def MalformedTag.message (e : MalformedTag) : String :=
  "Tag could not be parsed: " ++ Text.quoted e.raw

namespace Directive

/-- The character a portrait shows: its name up to the first underscore. -/
def characterOf (portrait : String) : String :=
  .ofList (portrait.toList.takeWhile (· ≠ '_'))

/-- The directive with a key and a value. -/
def ofKey (key value : String) : Directive :=
  if key = "speaker" then speaker value
  else if key = "expression" then expression (characterOf value) value
  else if key = "splash" then splash value
  else if key = "playSound" then playSound value
  else if key = "stopSound" then stopSound value
  else if key = "switchTheme" then switchTheme value
  else unknown key value

/-- The speaker's value that blanks the name. -/
def noSpeaker : String := "NONE"

/-- The call a directive makes, if it makes one. -/
def call? : Directive → Option Call
  | speaker name => some (.name (if name = noSpeaker then " " else name ++ ":"))
  | expression character portrait => some (.expression character portrait)
  | splash backdrop => some (.splash backdrop)
  | playSound sound => some (.play (.str sound))
  | stopSound sound => some (.stop sound)
  | switchTheme sound => some (.switchTheme sound)
  | unknown _ _ => none

/-- The report on a directive that makes no call. -/
def unknownKey (key : String) : Log.Entry :=
  Log.info ("Tag was parsed but cannot be interpreted. Tag key: " ++ key)

/-- Carries a directive out. -/
def apply (st : Stage ω) : Directive → ω → Attempt ω Fault
  | unknown key _, w => (st.report (unknownKey key) w, none)
  | d, w => d.call?.elim (w, none) (st.perform · w)

end Directive

namespace Tag

/-- Reads a tag. -/
def parse (raw : String) : Except MalformedTag Directive :=
  let cs := raw.toList
  let key := Text.trim (cs.takeWhile (· ≠ ':'))
  let value := Text.trim ((cs.dropWhile (· ≠ ':')).drop 1)
  if cs.count ':' ≠ 1 || key.isEmpty || value.isEmpty then .error ⟨raw⟩
  else .ok (.ofKey (.ofList key) (.ofList value))

/-- Carries out the tags of a line in order, up to one that breaks off; the second result is the
list of what was carried out. -/
def applyAll (st : Stage ω) : List String → ω → Attempt ω Fault × List Directive
  | [], w => ((w, none), [])
  | raw :: tags, w =>
    match parse raw with
    | .error e => applyAll st tags (st.report (Log.warning e.message) w)
    | .ok d =>
      match d.apply st w with
      | (w, some e) => ((w, some e), [])
      | (w, none) =>
        let (r, done) := applyAll st tags w
        (r, d :: done)

end Tag
end VisualNovel
