import VisualNovel.Bus
import VisualNovel.Stage
/-!
# Notices

The events of a game, with the data that goes with each.
-/
namespace VisualNovel

/-- The data of an event. -/
inductive Detail where
  | nothing
  /-- The name of a scene. -/
  | scene (name : String)
  /-- The name of a sound. -/
  | sound (name : String)
  /-- The theme and the one before. -/
  | theme (name previous : Option String)
  /-- A line and its tags. -/
  | line (text : String) (tags : List String)
  /-- The text of a line. -/
  | text (text : String)
  /-- The choices on offer. -/
  | choices (offered : List Choice)
  /-- The choice that was made. -/
  | choice (index : Int) (text : String)
  /-- An action of the player. -/
  | action (a : Action)
  deriving DecidableEq, Repr

/-- An event of a game. -/
abbrev Notice := Event Detail

namespace Notice

/-- A notice without data. -/
def plain (t : Topic) : Notice := ⟨t, .nothing⟩

/-- A line is about to be shown. -/
def lineStarted (text : String) (tags : List String) : Notice := ⟨.lineStarted, .line text tags⟩

/-- A line is shown. -/
def lineRevealed (text : String) : Notice := ⟨.lineRevealed, .text text⟩

/-- Choices are on offer. -/
def choicesShown (offered : List Choice) : Notice := ⟨.choicesShown, .choices offered⟩

/-- A choice was made. -/
def choiceMade (c : Choice) : Notice := ⟨.choiceMade, .choice c.index c.text⟩

/-- The player began an action. -/
def actionPressed (a : Action) : Notice := ⟨.actionPressed, .action a⟩

/-- The player ended an action. -/
def actionReleased (a : Action) : Notice := ⟨.actionReleased, .action a⟩

/-- The action a notice tells of. -/
def action? (n : Notice) : Option Action :=
  match n.data with
  | .action a => some a
  | _ => none

end Notice
end VisualNovel
