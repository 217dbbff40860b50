import Handoff.Log.Filter
import Handoff.Log.Path
import Handoff.Rehearsal.Run
import Handoff.Settings
import Handoff.Proofs.Json.Spelling
import Handoff.Proofs.Json.Lexeme
import Handoff.Proofs.Entry.Encoding
import Handoff.Proofs.Task.Encoding
import Handoff.Proofs.Store.Cell
import Handoff.Proofs.Program.Conditions
import Handoff.Proofs.Stored.Records
import Handoff.Proofs.Stored.Trays
import Handoff.Proofs.Stored.Reading
import Handoff.Proofs.Workflow.Undo
import Handoff.Proofs.Workflow.Create
import Handoff.Proofs.Workflow.Accept
import Handoff.Proofs.Stored.Moves
import Handoff.Proofs.Workflow.Finish
import Handoff.Proofs.Workflow.Assign
import Handoff.Proofs.Workflow.Atomic
import Handoff.Proofs.Pairing.Holding
import Handoff.Proofs.Pairing.Share
import Handoff.Proofs.Workflow.Bump
import Handoff.Proofs.Workflow.Edit
import Handoff.Proofs.Pairing.Steps
import Handoff.Proofs.Pairing.Assigning
import Handoff.Proofs.Pairing.Runs
import Handoff.Proofs.Pairing.Paired
import Handoff.Proofs.Pairing.Residue
import Handoff.Proofs.Pool.Round
import Handoff.Proofs.Pool.Basic
import Handoff.Proofs.Pool.Linear
import Handoff.Proofs.Program.Contract
import Handoff.Proofs.Stored.Contract
import Handoff.Proofs.Stored.Apart
import Handoff.Proofs.Stored.Readable
import Handoff.Proofs.Workflow.Readable
import Handoff.Proofs.Race.Basic
import Handoff.Proofs.Race.Protocol
import Handoff.Proofs.Race.Attempt
import Handoff.Proofs.Race.Undo
import Handoff.Proofs.Race.Sharing
import Handoff.Proofs.Race.Finish
import Handoff.Proofs.Race.Pair
import Handoff.Proofs.Race.Accepting.Steps
import Handoff.Proofs.Race.Accepting.Runs
import Handoff.Proofs.Race.Accepting.Outcome
import Handoff.Proofs.Race.Assigning.Steps
import Handoff.Proofs.Race.Assigning.Trays
import Handoff.Proofs.Race.Assigning.Assigner
import Handoff.Proofs.Race.Assigning.Finisher
import Handoff.Proofs.Race.Assigning.Outcome
import Handoff.Proofs.Stored.Built
import Handoff.Proofs.Workflow.Built
import Handoff.Proofs.Workflow.Request
import Handoff.Proofs.Workflow.Reading
import Handoff.Proofs.Race.Outage
import Handoff.Proofs.Stored.Unrepeated
import Handoff.Proofs.Workflow.Unrepeated
import Handoff.Proofs.Program.Deeds
import Handoff.Proofs.Stored.Equivalent
import Handoff.Proofs.Workflow.Equivalent
import Handoff.Proofs.Race.Finishing.Steps
import Handoff.Proofs.Race.Finishing.Runs
import Handoff.Proofs.Race.Finishing.Content
import Handoff.Proofs.Race.Finishing.Outcome
import Handoff.Proofs.Pairing.Spares.Basic
import Handoff.Proofs.Pairing.Spares.Steps
import Handoff.Proofs.Pairing.Spares.Assigning
import Handoff.Proofs.Pairing.Spares.Outcome
import Handoff.Proofs.Reminder.Record
import Handoff.Proofs.Reminder.Claims
import Handoff.Proofs.Reminder.Due
import Handoff.Proofs.Program.Service
import Handoff.Proofs.Stored.Service
import Handoff.Proofs.Workflow.Service
import Handoff.Proofs.Workflow.Decisive
import Handoff.Proofs.Backing.Roll
import Handoff.Proofs.Backing.Steps
import Handoff.Proofs.Backing.Workflows
import Handoff.Proofs.Backing.Assigning
import Handoff.Proofs.Backing.Outcome
import Handoff.Proofs.Pairing.Copies.Basic
import Handoff.Proofs.Pairing.Copies.Steps
import Handoff.Proofs.Pairing.Copies.Editing
import Handoff.Proofs.Pairing.Copies.Outcome
import Handoff.Proofs.Entry.RoundTrip
import Handoff.Proofs.Tray.Encoding
import Handoff.Proofs.Stored.NormalForm
import Handoff.Proofs.Stored.Unharmed
import Handoff.Proofs.Workflow.Unharmed
import Handoff.Proofs.Race.Editing
import Handoff.Proofs.Json.Grammar
import Handoff.Proofs.Json.Rendering
import Handoff.Proofs.Json.Members
import Handoff.Proofs.Entry.Forms
import Handoff.Proofs.Task.Fields
import Handoff.Proofs.Task.Flattened
import Handoff.Proofs.Program.Dialogue
import Handoff.Proofs.Pool.Dialogue
import Handoff.Proofs.Pool.History
import Handoff.Proofs.Pool.Contention
import Handoff.Proofs.Pairing.Reassigning.Trays
import Handoff.Proofs.Pairing.Reassigning.Outcome
import Handoff.Proofs.Program.Refusal
import Handoff.Proofs.Stored.Refusal
import Handoff.Proofs.Workflow.Cleaning
import Handoff.Proofs.Workflow.Promotion
import Handoff.Proofs.Stored.Search
import Handoff.Proofs.Workflow.Showing
import Handoff.Proofs.Race.Rivals
import Handoff.Proofs.Race.Fairness
import Handoff.Proofs.Reminder.Reading
import Handoff.Proofs.Stored.Inverse
import Handoff.Proofs.Workflow.RollBack
