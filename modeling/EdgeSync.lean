import EdgeSync.Main
import EdgeSync.Proofs.Agent.Dwindling
import EdgeSync.Proofs.Agent.AtWork
import EdgeSync.Proofs.Agent.Closing
import EdgeSync.Proofs.Agent.Failing
import EdgeSync.Proofs.Agent.Hosting
import EdgeSync.Proofs.Changes.Unchanged
import EdgeSync.Proofs.Pass.Isolation
import EdgeSync.Task.Rehearsal
import EdgeSync.Proofs.Replica.Mirror
import EdgeSync.Proofs.Replica.Drift
import EdgeSync.Proofs.Task.Attempts
import EdgeSync.Proofs.Task.Exclusion
import EdgeSync.Proofs.Event.History
import EdgeSync.Proofs.Event.Delivery
import EdgeSync.Proofs.Event.Listening
import EdgeSync.Proofs.Event.Overtaking
import EdgeSync.Proofs.Task.Roster
import EdgeSync.Proofs.Task.Rehearsing
import EdgeSync.Proofs.Registration.Once
import EdgeSync.Proofs.Json.Spelling
import EdgeSync.Proofs.Json.Lexemes
import EdgeSync.Proofs.Json.Restoring
import EdgeSync.Proofs.Json.RoundTrip
import EdgeSync.Proofs.Registration.Readiness
import EdgeSync.Proofs.Pass.Interruption
import EdgeSync.Proofs.Replica.Sharing
import EdgeSync.Proofs.Files.Writing
import EdgeSync.Proofs.Store.Repair
import EdgeSync.Proofs.Store.WriteBack
import EdgeSync.Proofs.Agent.Starting
import EdgeSync.Proofs.Session.Session
import EdgeSync.Proofs.Session.Tracking
import EdgeSync.Proofs.Session.Provenance
import EdgeSync.Proofs.Session.Dropping
import EdgeSync.Proofs.Refresh.Announcing
import EdgeSync.Proofs.Refresh.Relay
import EdgeSync.Proofs.Refresh.Rereading
import EdgeSync.Proofs.Refresh.Agreement
import EdgeSync.Proofs.Task.Numbers
import EdgeSync.Proofs.Task.Executions
import EdgeSync.Proofs.Task.Moments
import EdgeSync.Proofs.Task.Punctuality
import EdgeSync.Proofs.Changes.InOrder
import EdgeSync.Proofs.Event.Patrol
import EdgeSync.Proofs.Event.Journaling
import EdgeSync.Proofs.Event.JournalEnd
import EdgeSync.Proofs.Event.Guests
import EdgeSync.Proofs.Agent.Workshop
import EdgeSync.Proofs.Changes.Carrying
import EdgeSync.Proofs.Changes.Images
import EdgeSync.Proofs.Time.Counting
import EdgeSync.Proofs.Schedule.Reading
import EdgeSync.Proofs.Schedule.Sweeping
import EdgeSync.Proofs.Schedule.Occurrences
import EdgeSync.Proofs.Schedule.Upcoming
import EdgeSync.Proofs.Schedule.EveryYear
import EdgeSync.Proofs.Schedule.ListedYears
import EdgeSync.Proofs.Replica.NormalForm
import EdgeSync.Proofs.Replica.Naming
import EdgeSync.Proofs.Text.Words
import EdgeSync.Proofs.Schedule.Segments
import EdgeSync.Proofs.Schedule.Grammar
import EdgeSync.Proofs.Schedule.Rows
import EdgeSync.Proofs.Json.Trees
import EdgeSync.Proofs.Json.Skipping
import EdgeSync.Proofs.Json.Taking
import EdgeSync.Proofs.Json.Edits
import EdgeSync.Proofs.Json.Variants
import EdgeSync.Proofs.Store.Versions
import EdgeSync.Proofs.Task.Attending
import EdgeSync.Proofs.Web.Escapes
import EdgeSync.Proofs.Web.Paths
import EdgeSync.Proofs.Web.Hosted
import EdgeSync.Proofs.Web.Following
import EdgeSync.Proofs.Registration.Addressing
