import PromptDesk.Text.Blank
import PromptDesk.Text.Numeral
import PromptDesk.Keyed
import PromptDesk.Named
import PromptDesk.Json.Floating
import PromptDesk.Json.Basic
import PromptDesk.Json.Reader
import PromptDesk.Json.Printer
import PromptDesk.Timestamp
import PromptDesk.Text.Quoted
import PromptDesk.Text.Pattern
import PromptDesk.Json.Published
import PromptDesk.Failure
import PromptDesk.Message
import PromptDesk.Destination
import PromptDesk.Slot.Lifecycle
import PromptDesk.Slot.Phase
import PromptDesk.Slot.Basic
import PromptDesk.Gate.Reason
import PromptDesk.Gate.Tally
import PromptDesk.Gate.Basic
import PromptDesk.Axes
import PromptDesk.Board.Event
import PromptDesk.Board.Transcript
import PromptDesk.Board.Snapshot
import PromptDesk.Board.Attempt
import PromptDesk.Board.Basic
import PromptDesk.Directive
import PromptDesk.Telemetry
import PromptDesk.Settings.Basic
import PromptDesk.Settings.Environment
import PromptDesk.Toml.Basic
import PromptDesk.Toml.Scalar
import PromptDesk.Toml.Reader
import PromptDesk.Text.Alphanumeric
import PromptDesk.Settings.File
import PromptDesk.Settings.Dotenv
import PromptDesk.Request.Outcome
import PromptDesk.Conversation
import PromptDesk.Script.Command
import PromptDesk.Script.Basic
import PromptDesk.Request.Draft
import PromptDesk.Desk.Task
import PromptDesk.Desk.Answer
import PromptDesk.Desk.Basic
import PromptDesk.Desk.Command
import PromptDesk.Desk.Step
import PromptDesk.Desk.Playback
import PromptDesk.Desk.Execution
import PromptDesk.Desk.Turn
import PromptDesk.Desk.Schedule
import PromptDesk.Scenario
import PromptDesk.Proofs.Keyed
import PromptDesk.Proofs.Text.Trim
import PromptDesk.Proofs.Script.Throughout
import PromptDesk.Proofs.Slot.Moves
import PromptDesk.Proofs.Slot.History
import PromptDesk.Proofs.Slot.Owner
import PromptDesk.Proofs.Slot.Handover
import PromptDesk.Proofs.Desk.Frame
import PromptDesk.Proofs.Desk.Moves
import PromptDesk.Proofs.Desk.Exchange
import PromptDesk.Proofs.Gate.Protocol
import PromptDesk.Proofs.Gate.Refinement
import PromptDesk.Proofs.Desk.Conduct
import PromptDesk.Proofs.Desk.Work
import PromptDesk.Proofs.Desk.Others
import PromptDesk.Proofs.Desk.Execution
import PromptDesk.Proofs.Desk.Cancellation
import PromptDesk.Proofs.Desk.Custody
import PromptDesk.Proofs.Desk.Turns
import PromptDesk.Proofs.Desk.Lobby
import PromptDesk.Proofs.Desk.SingleFlight
import PromptDesk.Proofs.Desk.Apart
import PromptDesk.Proofs.Desk.Neighbours
import PromptDesk.Proofs.Desk.Visits
import PromptDesk.Proofs.Board.Growth
import PromptDesk.Proofs.Board.Published
import PromptDesk.Proofs.Board.Replay
import PromptDesk.Proofs.Board.Status
import PromptDesk.Proofs.Board.Steady
import PromptDesk.Proofs.Desk.Dealings
import PromptDesk.Proofs.Desk.Deeds
import PromptDesk.Proofs.Desk.DealingsAtWork
import PromptDesk.Proofs.Desk.Worker
import PromptDesk.Proofs.Desk.WorkerTurn
import PromptDesk.Proofs.Desk.WorkerRuns
import PromptDesk.Proofs.Desk.Superseded
import PromptDesk.Proofs.Desk.Retried
import PromptDesk.Proofs.Desk.Returned
import PromptDesk.Proofs.Desk.GivenBack
import PromptDesk.Proofs.Desk.Resolved
import PromptDesk.Proofs.Desk.Tokens
import PromptDesk.Proofs.Desk.Handles
import PromptDesk.Proofs.Desk.Statuses
import PromptDesk.Proofs.Desk.Shown
import PromptDesk.Proofs.Board.Alike
import PromptDesk.Proofs.Desk.Alike
import PromptDesk.Proofs.Desk.Indifferent
import PromptDesk.Proofs.Desk.Modes
import PromptDesk.Proofs.Counts
import PromptDesk.Proofs.Board.Drops
import PromptDesk.Proofs.Desk.Indoors
import PromptDesk.Proofs.Desk.Hop
import PromptDesk.Proofs.Desk.Still
import PromptDesk.Proofs.Desk.Hears
import PromptDesk.Proofs.Desk.Thread
import PromptDesk.Proofs.Desk.Speech
import PromptDesk.Proofs.Desk.SpeechAtWork
import PromptDesk.Proofs.Desk.Chats
import PromptDesk.Proofs.Desk.Reply
import PromptDesk.Proofs.Desk.Replayed
import PromptDesk.Proofs.Desk.Reached
import PromptDesk.Proofs.Gate.Refusal
import PromptDesk.Proofs.Desk.Exports
import PromptDesk.Proofs.Board.Course
import PromptDesk.Proofs.Desk.Reading
import PromptDesk.Proofs.Desk.Logged
import PromptDesk.Proofs.Desk.Recorded
import PromptDesk.Proofs.Json.Reading
import PromptDesk.Proofs.Json.Lossless
import PromptDesk.Proofs.Json.Records
import PromptDesk.Proofs.Desk.Promises
import PromptDesk.Proofs.Desk.Outcomes
import PromptDesk.Proofs.Desk.Delivered
import PromptDesk.Proofs.Desk.JobRuns
import PromptDesk.Proofs.Json.Lines
import PromptDesk.Proofs.Json.Strings
import PromptDesk.Proofs.Directive.Blocks
import PromptDesk.Proofs.Directive.Encoding
import PromptDesk.Proofs.Directive.Fenced
import PromptDesk.Proofs.Desk.Waiting
import PromptDesk.Proofs.Desk.Timing
import PromptDesk.Proofs.Gate.LastRefusal
import PromptDesk.Proofs.Gate.Marginals
import PromptDesk.Proofs.Board.Contents
import PromptDesk.Proofs.Board.LastDrop
import PromptDesk.Proofs.Axes
import PromptDesk.Proofs.Settings.Environment
import PromptDesk.Proofs.Text.Bytes
import PromptDesk.Proofs.Ranking
