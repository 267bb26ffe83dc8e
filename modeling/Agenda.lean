import Agenda.Api.Answer
import Agenda.Main
import Agenda.Proofs.Calendar.Compact
import Agenda.Proofs.Repeat.Occurrence
import Agenda.Proofs.Store.Refinement
import Agenda.Proofs.Store.Rows
import Agenda.Proofs.Store.Table
import Agenda.Proofs.Store.TasksFile
import Agenda.Proofs.Tasks.Anniversary
import Agenda.Proofs.Tasks.Completion
import Agenda.Proofs.Tasks.Dates
import Agenda.Proofs.Calendar.Ordinal
import Agenda.Proofs.Repeat.First
import Agenda.Proofs.Repeat.Search
import Agenda.Proofs.Store.Effect
import Agenda.Proofs.Store.Identifiers
import Agenda.Proofs.Store.Reuse
import Agenda.Proofs.Tasks.Unchanged
import Agenda.Proofs.Api.Unchanged
import Agenda.Proofs.Store.Taken
import Agenda.Proofs.Tasks.Process
import Agenda.Proofs.Tasks.Atomicity
import Agenda.Proofs.Store.Removal
import Agenda.Proofs.Store.Refusals
import Agenda.Proofs.Tasks.Clients
import Agenda.Proofs.Repeat.Grammar
import Agenda.Proofs.Repeat.Range
import Agenda.Proofs.Repeat.Rhythm
import Agenda.Proofs.Task.Acceptance
import Agenda.Proofs.Tasks.Conclusion
import Agenda.Proofs.Tasks.Rhythm
import Agenda.Proofs.Tasks.Healthy
import Agenda.Proofs.Api.Status
import Agenda.Proofs.Api.RoundTrip
import Agenda.Proofs.Program.Agreement
import Agenda.Proofs.Settings.Loading
import Agenda.Proofs.Store.Listed
import Agenda.Proofs.Tasks.Outcome
import Agenda.Proofs.Store.Commute
import Agenda.Proofs.Program.Modification
import Agenda.Proofs.Listing.Layout
import Agenda.Proofs.Settings.Flattening
import Agenda.Proofs.Tasks.Labels
import Agenda.Proofs.Text.Width
import Agenda.Proofs.Listing.Limits
import Agenda.Proofs.Listing.Lines
import Agenda.Proofs.Settings.Shown
import Agenda.Proofs.Store.Reading
