import VisualNovel.Assoc
import VisualNovel.Attempt
import VisualNovel.Bus
import VisualNovel.Canvas
import VisualNovel.Clock
import VisualNovel.Dialogue.Basic
import VisualNovel.Dialogue.Commands
import VisualNovel.Dialogue.Recital
import VisualNovel.Dialogue.Rehearsal
import VisualNovel.Dialogue.Rehearsal.Document
import VisualNovel.Dialogue.Reveal
import VisualNovel.Dialogue.Session
import VisualNovel.Fault
import VisualNovel.Files.Bundle
import VisualNovel.Files.Disk
import VisualNovel.Files.Document
import VisualNovel.Files.Error
import VisualNovel.Files.Path
import VisualNovel.Focus
import VisualNovel.FocusTransfer
import VisualNovel.Gallery
import VisualNovel.HandlerScript
import VisualNovel.HandlerScript.Document
import VisualNovel.House.Basic
import VisualNovel.House.Document
import VisualNovel.House.Edition
import VisualNovel.House.Scenes
import VisualNovel.House.Screen
import VisualNovel.Input
import VisualNovel.Input.Document
import VisualNovel.Journal.Basic
import VisualNovel.Journal.State
import VisualNovel.Json.Access
import VisualNovel.Json.Order
import VisualNovel.Json.Reader
import VisualNovel.Json.Shown
import VisualNovel.Json.Value
import VisualNovel.Json.Writer
import VisualNovel.Log
import VisualNovel.Loop.Document
import VisualNovel.Loop.Game
import VisualNovel.Loop.Pace
import VisualNovel.Main
import VisualNovel.Misfit
import VisualNovel.Notice
import VisualNovel.Number
import VisualNovel.Number.Digits
import VisualNovel.Number.Double
import VisualNovel.Number.Fixed
import VisualNovel.Number.Shortest
import VisualNovel.Number.Text
import VisualNovel.Painter
import VisualNovel.Proofs.Bus.Conduct
import VisualNovel.Proofs.Bus.Delivery
import VisualNovel.Proofs.Bus.OneShots
import VisualNovel.Proofs.Bus.Order
import VisualNovel.Proofs.Bus.Ranks
import VisualNovel.Proofs.Bus.Scripts
import VisualNovel.Proofs.Bus.Turns
import VisualNovel.Proofs.Clock
import VisualNovel.Proofs.Dialogue.Chamber
import VisualNovel.Proofs.Dialogue.Commands
import VisualNovel.Proofs.Dialogue.History
import VisualNovel.Proofs.Dialogue.Lifecycle
import VisualNovel.Proofs.Dialogue.Lines
import VisualNovel.Proofs.Dialogue.OneReveal
import VisualNovel.Proofs.Dialogue.Pacing
import VisualNovel.Proofs.Dialogue.Pages
import VisualNovel.Proofs.Dialogue.Passing
import VisualNovel.Proofs.Dialogue.Reading
import VisualNovel.Proofs.Dialogue.Reciters
import VisualNovel.Proofs.Dialogue.Recites
import VisualNovel.Proofs.Dialogue.Reveal
import VisualNovel.Proofs.Dialogue.Steps
import VisualNovel.Proofs.Dialogue.Strays
import VisualNovel.Proofs.Dialogue.Tasks
import VisualNovel.Proofs.Dialogue.Updates
import VisualNovel.Proofs.Dialogue.Venue
import VisualNovel.Proofs.Dialogue.Ward
import VisualNovel.Proofs.Files.Reading
import VisualNovel.Proofs.Files.Writing
import VisualNovel.Proofs.Gallery
import VisualNovel.Proofs.House.Chamber
import VisualNovel.Proofs.House.Delivery
import VisualNovel.Proofs.House.Hearing
import VisualNovel.Proofs.House.Responses
import VisualNovel.Proofs.House.Resting
import VisualNovel.Proofs.House.Runs
import VisualNovel.Proofs.House.Screens
import VisualNovel.Proofs.House.Setting
import VisualNovel.Proofs.House.Setup
import VisualNovel.Proofs.House.Showing
import VisualNovel.Proofs.House.Stack
import VisualNovel.Proofs.House.Ward
import VisualNovel.Proofs.Input.Holding
import VisualNovel.Proofs.Input.Presses
import VisualNovel.Proofs.Json.Names
import VisualNovel.Proofs.Json.RoundTrip
import VisualNovel.Proofs.Json.Strings
import VisualNovel.Proofs.Loop.Frames
import VisualNovel.Proofs.Loop.Playthroughs
import VisualNovel.Proofs.Loop.Timekeeping
import VisualNovel.Proofs.Rehearsal.Agreement
import VisualNovel.Proofs.Rehearsal.Busy
import VisualNovel.Proofs.Rehearsal.Coherence
import VisualNovel.Proofs.Rehearsal.Endings
import VisualNovel.Proofs.Rehearsal.Faithful
import VisualNovel.Proofs.Rehearsal.Glimpses
import VisualNovel.Proofs.Rehearsal.Hazard
import VisualNovel.Proofs.Rehearsal.Hooks
import VisualNovel.Proofs.Rehearsal.Orders
import VisualNovel.Proofs.Rehearsal.Progress
import VisualNovel.Proofs.Rehearsal.Runs
import VisualNovel.Proofs.Rehearsal.Skips
import VisualNovel.Proofs.Rehearsal.Stand
import VisualNovel.Proofs.Rehearsal.Undisturbed
import VisualNovel.Proofs.SceneStack
import VisualNovel.Proofs.SceneStack.Accounts
import VisualNovel.Proofs.SceneStack.Lives
import VisualNovel.Proofs.SceneStack.Playhouses
import VisualNovel.Proofs.SceneStack.Records
import VisualNovel.Proofs.SceneStack.Stays
import VisualNovel.Proofs.Scheduler.Cancelling
import VisualNovel.Proofs.Scheduler.Chronicles
import VisualNovel.Proofs.Scheduler.Conduct
import VisualNovel.Proofs.Scheduler.Courses
import VisualNovel.Proofs.Scheduler.Growth
import VisualNovel.Proofs.Scheduler.Ledger
import VisualNovel.Proofs.Scheduler.Lives
import VisualNovel.Proofs.Scheduler.Reach
import VisualNovel.Proofs.Scheduler.Rounds
import VisualNovel.Proofs.Scheduler.Scripts
import VisualNovel.Proofs.Scheduler.Splits
import VisualNovel.Proofs.Scheduler.Tasks
import VisualNovel.Proofs.Scheduler.Timetable
import VisualNovel.Proofs.Scheduler.Turns
import VisualNovel.Proofs.Scheduler.Updates
import VisualNovel.Proofs.Scheduler.Workshops
import VisualNovel.Proofs.Settings
import VisualNovel.Proofs.Sound.Lists
import VisualNovel.Proofs.Sound.Orders
import VisualNovel.Proofs.Sound.Registry
import VisualNovel.Proofs.Sound.Themes
import VisualNovel.Proofs.Story.Acceptance
import VisualNovel.Proofs.Story.Chains
import VisualNovel.Proofs.Story.Choices
import VisualNovel.Proofs.Story.CleanTexts
import VisualNovel.Proofs.Story.Drafts
import VisualNovel.Proofs.Story.Faults
import VisualNovel.Proofs.Story.Layouts
import VisualNovel.Proofs.Story.LineForms
import VisualNovel.Proofs.Story.Manuscripts
import VisualNovel.Proofs.Story.Moves
import VisualNovel.Proofs.Story.Passages
import VisualNovel.Proofs.Story.Plain
import VisualNovel.Proofs.Story.Printing
import VisualNovel.Proofs.Story.ScriptFiles
import VisualNovel.Proofs.Story.Shapes
import VisualNovel.Proofs.Story.Soundness
import VisualNovel.Proofs.Story.Walker
import VisualNovel.Proofs.Tags
import VisualNovel.Proofs.Text.Pieces
import VisualNovel.Proofs.Text.Rows
import VisualNovel.Proofs.Text.Wrapping
import VisualNovel.Proofs.View
import VisualNovel.Proofs.View.Revealed
import VisualNovel.SceneScript
import VisualNovel.SceneScript.Document
import VisualNovel.SceneStack
import VisualNovel.Scheduler
import VisualNovel.Services
import VisualNovel.Settings
import VisualNovel.Slots
import VisualNovel.Sound.Cue
import VisualNovel.Sound.Jukebox
import VisualNovel.Sound.Samples
import VisualNovel.Stage
import VisualNovel.Story.Format
import VisualNovel.Story.Graph
import VisualNovel.Story.Opening
import VisualNovel.Story.Player
import VisualNovel.Story.Script
import VisualNovel.Story.ScriptFile
import VisualNovel.Story.Statement
import VisualNovel.Tag
import VisualNovel.TaskScript
import VisualNovel.TaskScript.Document
import VisualNovel.Text.Blank
import VisualNovel.Text.Halves
import VisualNovel.Text.Printable
import VisualNovel.Text.Quoted
import VisualNovel.Text.Split
import VisualNovel.Text.Width
import VisualNovel.Text.WordChar
import VisualNovel.Text.Wrap
import VisualNovel.Topic
import VisualNovel.View.Basic
import VisualNovel.View.Drawing
