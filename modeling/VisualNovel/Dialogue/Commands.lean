import VisualNovel.Dialogue.Reveal
import VisualNovel.Story.Format
import VisualNovel.Tag
/-!
# Commands of a dialogue

A dialogue plays a story line by line. A line is fetched and published, its tags are carried out,
and it is revealed; then the story's choices are offered, or the dialogue waits to be advanced. The
dialogue ends when the story has neither lines nor choices left. While a line is revealed nothing
but a skip can be asked for.

Events may be answered by handlers that give commands themselves, so publishing is part of the
wiring; every command goes on with the state the handlers leave behind. A command that ends the
dialogue says so as its result, and does nothing after that.
-/
namespace VisualNovel

/-- How a dialogue is wired to the outside. -/
structure Wiring (τ ω : Type) where
  manner : Manner τ ω
  /-- Publishes an event. -/
  publish : Notice → Dialogue τ Unit ω → Dialogue τ Unit ω
  /-- Begins to listen to the player's actions. -/
  listen : ω → Attempt ω Fault
  /-- Ceases to listen to them. -/
  unlisten : ω → ω
  /-- Focuses the start button. -/
  focusStart : ω → ω

/-- The stage a dialogue is wired to. -/
abbrev Wiring.stage (w : Wiring τ ω) : Stage ω := w.manner.stage

/-- What comes of a command. -/
inductive Turn where
  | done
  /-- The dialogue has ended. -/
  | ended
  /-- The story refuses a choice. -/
  | refused (e : Story.PlayError)
  /-- The content is not a story. -/
  | unreadable (e : Story.FormatError)
  /-- It broke off. -/
  | failed (e : Fault)
  deriving DecidableEq

/-- Goes on to the rest of a command, unless what came before it broke off. -/
def Attempt.turn (r : Attempt σ Fault) (next : σ → σ × Turn) : σ × Turn :=
  match r with
  | (s, none) => next s
  | (s, some e) => (s, .failed e)

namespace Dialogue
variable {τ ω : Type}

/-- Cancels the task that focuses the first choice, if there is one. -/
def cancelFocus (st : Stage ω) (d : Dialogue τ Unit ω) : Dialogue τ Unit ω :=
  match d.focus with
  | none => d
  | some id => { ((host st).cancel id d).1 with focus := none }

/-- The story's choices. -/
def storyChoices (d : Dialogue τ Unit ω) : List Choice := (d.story.map (·.choices)).getD []

/-- The report that there are more choices than slots. -/
def tooManyChoices (count : Nat) (slots : Int) : Log.Entry :=
  Log.error ("Story offers " ++ toString count ++ " choices but only " ++ toString slots ++
    " slots are available; extra choices dropped")

/-- Reports that there are more choices than slots, and leaves the choices that there are slots
for. -/
def dropChoices (st : Stage ω) (choices : List Choice) (d : Dialogue τ Unit ω) :
    Dialogue τ Unit ω × Except Misfit (List Choice) :=
  let slots := st.slots d.outside
  match slots.whole with
  | .error e => (d, .error e)
  | .ok whole => (d.report st (tooManyChoices choices.length whole), slots.cut choices)

/-- Makes the story's choices the pending ones, as far as there are slots for them. -/
def takeChoices (st : Stage ω) (d : Dialogue τ Unit ω) : Attempt (Dialogue τ Unit ω) Fault :=
  let choices := d.storyChoices
  match (st.slots d.outside).areFewerThan choices.length with
  | .error e => (d, some (.misfit e))
  | .ok tooMany =>
    let (d, kept) := if tooMany then d.dropChoices st choices else (d, .ok choices)
    match kept with
    | .error e => (d, some (.misfit e))
    | .ok pending => (d.withSession fun s => { s with pending }, none)

/-- Starts to hand the focus to a target, which nothing has in the meantime. -/
def startHandover [Clock τ] (st : Stage ω) (name : String) (last : Activity Unit)
    (d : Dialogue τ Unit ω) : Attempt (Dialogue τ Unit ω) Fault × TaskId :=
  let (r, id) := (host st).start (.str name)
    (fun d => runTo (.suspend .nextTick last) (d.perform st .clearFocus)) d
  (r.mapError Fault.misfit, id)

/-- Starts to hand the focus to the first choice. -/
def startFocus [Clock τ] (w : Wiring τ ω) (d : Dialogue τ Unit ω) :
    Attempt (Dialogue τ Unit ω) Fault :=
  let (r, id) := d.startHandover w.stage "focus_choice" .focusChoice
  r.andThen fun d => ({ d with focus := some id }, none)

/-- Offers the story's choices, or waits to be advanced if there are none. -/
def presentChoices [Clock τ] (w : Wiring τ ω) (d : Dialogue τ Unit ω) :
    Attempt (Dialogue τ Unit ω) Fault :=
  (d.takeChoices w.stage).andThen fun d =>
    let pending := d.session.pending
    if pending.isEmpty then (d.withSession fun s => { s with phase := .awaitingAdvance }, none)
    else
      let d := d.withSession fun s => { s with phase := .awaitingChoice }
      (d.perform w.stage (.choices pending)).andThen fun d =>
        (w.publish (.choicesShown pending) d).startFocus w

/-- What is done when a line is revealed. -/
def lineRevealed [Clock τ] (w : Wiring τ ω) (d : Dialogue τ Unit ω) :
    Attempt (Dialogue τ Unit ω) Fault :=
  (w.publish (.lineRevealed d.session.line) d).presentChoices w

/-- Ends the dialogue. -/
def finish (w : Wiring τ ω) (d : Dialogue τ Unit ω) : Dialogue τ Unit ω × Turn :=
  if !d.session.active then (d, .done)
  else
    let d := ((d.withOutside w.unlisten).cancelReveal w.stage).cancelFocus w.stage
    (d.perform w.stage .hideChoices).turn fun d =>
      let d := w.publish (.plain .dialogueEnded) (d.withSession Session.finish)
      (d.report w.stage (Log.info "Dialogue ended"), .ended)

/-- Shows a line that was fetched. -/
def showLine [Clock τ] (w : Wiring τ ω) (line : Story.Line) (d : Dialogue τ Unit ω) :
    Attempt (Dialogue τ Unit ω) Fault :=
  let d := d.withSession (Session.beginLine line.text)
  let d := w.publish (.lineStarted line.text line.tags) d
  (d.attempt fun o => (Tag.applyAll w.stage line.tags o).1).andThen fun d =>
    d.startReveal w.manner line.text () (lineRevealed w)

/-- Fetches the next line and starts to reveal it; without a line, offers the choices or ends the
dialogue. -/
def continueStory [Clock τ] (w : Wiring τ ω) (d : Dialogue τ Unit ω) : Dialogue τ Unit ω × Turn :=
  match d.story with
  | none => (d, .done)
  | some story =>
    if !d.session.active || d.session.revealing then (d, .done)
    else if !story.canContinue then
      if story.choices.isEmpty then d.finish w
      else if d.session.pending.isEmpty then
        ((d.cancelFocus w.stage).presentChoices w).turn (·, .done)
      else (d, .done)
    else
      (((d.cancelReveal w.stage).cancelFocus w.stage).perform w.stage .hideChoices).turn fun d =>
        match story.continue? with
        | .error e => (d, .refused e)
        | .ok (line, story, log) =>
          ((({ d with story := some story }).reportAll w.stage log).showLine w line).turn (·, .done)

/-- The player's signal: asks for a skip while a line is revealed, else goes on, unless a choice is
pending. -/
def advance [Clock τ] (w : Wiring τ ω) (d : Dialogue τ Unit ω) : Dialogue τ Unit ω × Turn :=
  if !d.session.active then (d, .done)
  else if d.session.revealing then (d.withSession fun s => { s with skip := true }, .done)
  else if d.session.pending.isEmpty then d.continueStory w
  else (d, .done)

/-- Makes a report on a choice, of which it shows the whole number. -/
def reportChoice (st : Stage ω) (entry : String → Log.Entry) (index : Json)
    (d : Dialogue τ Unit ω) : Dialogue τ Unit ω × Turn :=
  match index.number.bind Number.truncate with
  | .error e => (d, .failed (.misfit e))
  | .ok n => (d.report st (entry (toString n)), .done)

/-- The report that a choice comes too early. -/
def tooEarly (index : String) : Log.Entry :=
  Log.debug ("Choice " ++ index ++ " ignored while a line is revealing")

/-- The report that there is no such choice among the pending ones. -/
def notPending (count : Nat) (index : String) : Log.Entry :=
  Log.error ("Choice index " ++ index ++ " out of range (" ++ toString count ++ " choices pending)")

/-- Takes a pending choice and goes on. -/
def take [Clock τ] (w : Wiring τ ω) (story : Story.Player) (choice : Choice)
    (d : Dialogue τ Unit ω) : Dialogue τ Unit ω × Turn :=
  match story.choose? choice.index with
  | .error e => (d, .refused e)
  | .ok (story, log) =>
    let d := ({ d with story := some story }).reportAll w.stage log
    let d := d.withSession fun s => { s with pending := [] }
    (w.publish (.choiceMade choice) d).continueStory w

/-- Takes the pending choice that a value stands for and goes on. -/
def choose [Clock τ] (w : Wiring τ ω) (index : Json) (d : Dialogue τ Unit ω) :
    Dialogue τ Unit ω × Turn :=
  match d.story with
  | none => (d, .done)
  | some story =>
    let pending := d.session.pending
    if !d.session.active then (d, .done)
    else if d.session.revealing then d.reportChoice w.stage tooEarly index
    else
      match index.number with
      | .error e => (d, .failed (.misfit e))
      | .ok n =>
        if Number.le (.int 0) n && Number.lt n (.int pending.length) then
          match index.count with
          | .error e => (d, .failed (.misfit e))
          | .ok i => (pending[i.toNat]?).elim (d, .done) (d.take w story)
        else d.reportChoice w.stage (notPending pending.length) index

/-- Breaks the dialogue off. -/
def shutdown (w : Wiring τ ω) (d : Dialogue τ Unit ω) : Dialogue τ Unit ω :=
  (((d.withOutside w.unlisten).cancelReveal w.stage).cancelFocus w.stage).withSession Session.reset

/-- Begins a story and shows its first line. -/
def begin [Clock τ] (w : Wiring τ ω) (content : Json) (d : Dialogue τ Unit ω) :
    Dialogue τ Unit ω × Turn :=
  if d.session.active then
    (d.report w.stage (Log.error "Dialogue already running; start_dialogue ignored"), .done)
  else
    match Story.Graph.ofContent content with
    | .error e => (d, .unreadable e)
    | .ok graph =>
      let (story, log) := Story.Player.start graph
      let d := ({ d with story := some story }).reportAll w.stage log
      let d := d.withSession fun s => { s with active := true, phase := .idle }
      ((d.perform w.stage (.switchTheme "")).andThen (attempt w.listen)).turn fun d =>
        let d := w.publish (.plain .dialogueStarted) d
        (d.report w.stage (Log.info "Dialogue started")).continueStory w

/-- One run of a task. -/
def run [Clock τ] (w : Wiring τ ω) (a : Activity Unit) (d : Dialogue τ Unit ω) :
    Dialogue τ Unit ω × Outcome τ (Activity Unit) :=
  match a with
  | .reveal text after => d.runReveal w.manner text after (lineRevealed w)
  | .focusChoice => runTo .finish (d.perform w.stage (.focus 0))
  | .focusStart => (d.withOutside w.focusStart, .finish)

/-- Lets time pass. -/
def update [Clock τ] (w : Wiring τ ω) (dt : τ) (d : Dialogue τ Unit ω) :
    Attempt (Dialogue τ Unit ω) Fault :=
  ((host w.stage).update (run w) Activity.rounds dt d).mapError Fault.misfit

/-- Starts to hand the focus to the start button. -/
def startStartFocus [Clock τ] (w : Wiring τ ω) (d : Dialogue τ Unit ω) :
    Attempt (Dialogue τ Unit ω) Fault :=
  (d.startHandover w.stage "focus_start" .focusStart).1

end Dialogue
end VisualNovel
