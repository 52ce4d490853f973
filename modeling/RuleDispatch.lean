import RuleDispatch.Text.Blank
import RuleDispatch.Text.Quoted
import RuleDispatch.Decimal.Layout
import RuleDispatch.Decimal.Read
import RuleDispatch.Json.Reader
import RuleDispatch.Json.Printer
import RuleDispatch.Json.Skip
import RuleDispatch.Time.Rfc3339
import RuleDispatch.Identifier
import RuleDispatch.Event
import RuleDispatch.Rule.Document
import RuleDispatch.Pattern
import RuleDispatch.Console.Command
import RuleDispatch.Rule.Agreement
import RuleDispatch.Keyed
import RuleDispatch.Bus
import RuleDispatch.Store
import RuleDispatch.RunSlot
import RuleDispatch.Interpreter
import RuleDispatch.Console.Lines
import RuleDispatch.World.Basic
import RuleDispatch.World.Engine
import RuleDispatch.World.Step
import RuleDispatch.Service
import RuleDispatch.Toml.Reader
import RuleDispatch.Files
import RuleDispatch.Config
import RuleDispatch.Daemon
import RuleDispatch.Main
import RuleDispatch.Proofs.History
import RuleDispatch.Proofs.Ledger
import RuleDispatch.Proofs.Chores
import RuleDispatch.Proofs.Steps
import RuleDispatch.Proofs.Fittings
import RuleDispatch.Proofs.Slots.Tokens
import RuleDispatch.Proofs.Slots.Moves
import RuleDispatch.Proofs.Slots.Accounting
import RuleDispatch.Proofs.Slots.Restart
import RuleDispatch.Proofs.Runs.Unrolling
import RuleDispatch.Proofs.Runs.Turn
import RuleDispatch.Proofs.Runs.Extends
import RuleDispatch.Proofs.Runs.Poised
import RuleDispatch.Proofs.Runs.Schedule
import RuleDispatch.Proofs.Runs.Course
import RuleDispatch.Proofs.Runs.Outlook
import RuleDispatch.Proofs.Runs.Timetable
import RuleDispatch.Proofs.Runs.Prospect
import RuleDispatch.Proofs.Runs.Heed
import RuleDispatch.Proofs.Runs.Remains
import RuleDispatch.Proofs.Runs.Cancellation
import RuleDispatch.Proofs.Disposal.Listing
import RuleDispatch.Proofs.Disposal.Wiring
import RuleDispatch.Proofs.Disposal.Rewiring
import RuleDispatch.Proofs.Disposal.Deliveries
import RuleDispatch.Proofs.Disposal.Finality
import RuleDispatch.Proofs.Patterns.Attempts
import RuleDispatch.Proofs.Patterns.Occurrences
import RuleDispatch.Proofs.Subscriptions.Boards
import RuleDispatch.Proofs.Subscriptions.Tallies
import RuleDispatch.Proofs.Subscriptions.Books
import RuleDispatch.Proofs.Subscriptions.Outside
import RuleDispatch.Proofs.Subscriptions.Account
import RuleDispatch.Proofs.Subscriptions.Equipped
import RuleDispatch.Proofs.Subscriptions.Traces
import RuleDispatch.Proofs.Subscriptions.Once
import RuleDispatch.Proofs.Dispatch.Calls
import RuleDispatch.Proofs.Dispatch.Firings
import RuleDispatch.Proofs.Dispatch.Edits
import RuleDispatch.Proofs.Dispatch.Ending
import RuleDispatch.Proofs.Dispatch.Rounds
import RuleDispatch.Proofs.Dispatch.Snapshots
import RuleDispatch.Proofs.Dispatch.Origins
import RuleDispatch.Proofs.Dispatch.Writes
import RuleDispatch.Proofs.Finite.Doubles
import RuleDispatch.Proofs.Finite.Readings
import RuleDispatch.Proofs.Finite.Provisions
import RuleDispatch.Proofs.Finite.Stores
import RuleDispatch.Proofs.Reload.Tokens
import RuleDispatch.Proofs.Reload.Values
import RuleDispatch.Proofs.Reload.Parts
import RuleDispatch.Proofs.Reload.Rules
import RuleDispatch.Proofs.Reload.Drift
import RuleDispatch.Proofs.Guises.Basic
import RuleDispatch.Proofs.Guises.Engine
import RuleDispatch.Proofs.Failures.Veil
import RuleDispatch.Proofs.Failures.Behind
import RuleDispatch.Proofs.Failures.Histories
import RuleDispatch.Proofs.Failures.Doomed
import RuleDispatch.Proofs.Failures.Closing
import RuleDispatch.Proofs.Failures.Twins
import RuleDispatch.Proofs.Failures.Isolation
import RuleDispatch.Proofs.Relevance.Disregard
import RuleDispatch.Proofs.Relevance.Akin
import RuleDispatch.Proofs.Relevance.Operations
import RuleDispatch.Proofs.Relevance.Steps
import RuleDispatch.Proofs.Relevance.Histories
import RuleDispatch.Proofs.Relevance.Shifts
import RuleDispatch.Proofs.Relevance.Interludes
import RuleDispatch.Proofs.Lookouts
import RuleDispatch.Proofs.Dispatch.Progress
import RuleDispatch.Proofs.Dispatch.Told
import RuleDispatch.Proofs.Timers.Ticks
import RuleDispatch.Proofs.Timers.Wakeful
import RuleDispatch.Proofs.Timers.Punctual
import RuleDispatch.Proofs.Timers.Arrival
import RuleDispatch.Proofs.Timers.Handles
import RuleDispatch.Proofs.Subscriptions.Attendance
import RuleDispatch.Proofs.Patterns.Feeding
import RuleDispatch.Proofs.Patterns.Watchers
import RuleDispatch.Proofs.Presentation.Levels
import RuleDispatch.Proofs.Presentation.Spelling
import RuleDispatch.Proofs.Presentation.Documents
import RuleDispatch.Proofs.Presentation.Grammar
import RuleDispatch.Proofs.Presentation.Entries
import RuleDispatch.Proofs.Registry.Batches
import RuleDispatch.Proofs.Registry.Shutdown
import RuleDispatch.Proofs.Console.Grammar
import RuleDispatch.Proofs.Console.Input
import RuleDispatch.Proofs.Refusals.Histories
import RuleDispatch.Proofs.Conditions
import RuleDispatch.Proofs.Patterns.Windows
import RuleDispatch.Proofs.Subscriptions.Registrations
