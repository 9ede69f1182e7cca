import VisualNovel.Attempt
import VisualNovel.Fault
import VisualNovel.Log
import VisualNovel.Slots
/-!
# The stage

Everything a dialogue does to the outside is one of the calls below: to the sound sink, to the
image sink, or to the view. A stage says what a call does to its surroundings `ω`, in which it may
break off; a dialogue knows nothing else about them than the number of choice slots.
-/
namespace VisualNovel

/-- A choice as the player sees it, with its place among the story's choices. -/
structure Choice where
  text : String
  index : Int
  deriving DecidableEq, Repr

/-- One thing a dialogue asks of the outside. -/
inductive Call where
  /-- Play a sound from its beginning. What names it may be any value. -/
  | play (sound : Json)
  /-- Stop a sound. -/
  | stop (sound : String)
  /-- Replace the theme; a blank name turns it off. -/
  | switchTheme (sound : String)
  /-- Show a character's portrait. -/
  | expression (character portrait : String)
  /-- Show a backdrop. -/
  | splash (backdrop : String)
  /-- Show the speaker's name. -/
  | name (text : String)
  /-- Hold the whole text of the next line. -/
  | line (text : String)
  /-- Show the first characters of the line. -/
  | visible (count : Nat)
  /-- Offer choices. -/
  | choices (offered : List Choice)
  /-- Take the choices away. -/
  | hideChoices
  /-- Focus nothing. -/
  | clearFocus
  /-- Focus the choice in a slot. -/
  | focus (slot : Nat)
  deriving DecidableEq

/-- Whether a call is to the view, and not to the sound or image sink. -/
def Call.isVisual : Call → Bool
  | play _ | stop _ | switchTheme _ | expression _ _ | splash _ => false
  | name _ | line _ | visible _ | choices _ | hideChoices | clearFocus | focus _ => true

/-- What calls and reports do to the surroundings. -/
structure Stage (ω : Type) where
  /-- Answers a call. -/
  perform : Call → ω → Attempt ω Fault
  /-- Takes a report. -/
  report : Log.Entry → ω → ω
  /-- The number of choices the view has room for. -/
  slots : ω → Slots

/-- Surroundings that only write down what reaches them. -/
structure Transcript where
  calls : List Call := []
  log : List Log.Entry := []
  deriving DecidableEq

/-- The stage that writes every call and report down, with room for `slots` choices. -/
def Stage.recording (slots : Slots) : Stage Transcript where
  perform call t := ({ t with calls := t.calls ++ [call] }, none)
  report entry t := { t with log := t.log ++ [entry] }
  slots _ := slots

end VisualNovel
