import FileIndexing.Concurrent.Action
import FileIndexing.Concurrent.Pool
import FileIndexing.Concurrent.Program
import FileIndexing.Config
import FileIndexing.Decimal.Shortest
import FileIndexing.Duration
import FileIndexing.Error
import FileIndexing.File
import FileIndexing.Id
import FileIndexing.Json.Fault
import FileIndexing.Json.Form
import FileIndexing.Json.Number
import FileIndexing.Json.Tree
import FileIndexing.Json.Value
import FileIndexing.Marks.Table
import FileIndexing.Marks.Waiting
import FileIndexing.Metrics
import FileIndexing.Metrics.Json
import FileIndexing.Path
import FileIndexing.Proofs.Accounting
import FileIndexing.Proofs.Aftermath
import FileIndexing.Proofs.Alone
import FileIndexing.Proofs.Coherence
import FileIndexing.Proofs.Completion
import FileIndexing.Proofs.Conduct
import FileIndexing.Proofs.Confinement
import FileIndexing.Proofs.Containment
import FileIndexing.Proofs.Discretion
import FileIndexing.Proofs.Errands
import FileIndexing.Proofs.Evaluation
import FileIndexing.Proofs.Exclusion
import FileIndexing.Proofs.Fanout
import FileIndexing.Proofs.Freshness
import FileIndexing.Proofs.Grammar
import FileIndexing.Proofs.Handover
import FileIndexing.Proofs.Inversion
import FileIndexing.Proofs.Isolation
import FileIndexing.Proofs.Linearization
import FileIndexing.Proofs.NameOrder
import FileIndexing.Proofs.Oblivious
import FileIndexing.Proofs.Overlap
import FileIndexing.Proofs.Persistence
import FileIndexing.Proofs.Presence
import FileIndexing.Proofs.Progress
import FileIndexing.Proofs.Provenance
import FileIndexing.Proofs.Reading
import FileIndexing.Proofs.Recency
import FileIndexing.Proofs.Redress
import FileIndexing.Proofs.Refilling
import FileIndexing.Proofs.Refinement
import FileIndexing.Proofs.Refusal
import FileIndexing.Proofs.Registration
import FileIndexing.Proofs.Removal
import FileIndexing.Proofs.Reporting
import FileIndexing.Proofs.Scene
import FileIndexing.Proofs.Scheduling
import FileIndexing.Proofs.Session
import FileIndexing.Proofs.Settings
import FileIndexing.Proofs.Spelling
import FileIndexing.Proofs.Staleness
import FileIndexing.Proofs.Trace
import FileIndexing.Proofs.Translation
import FileIndexing.Proofs.Updating
import FileIndexing.Proofs.Wakeup
import FileIndexing.Proofs.Writer
import FileIndexing.Rebuild.Contention
import FileIndexing.Rebuild.History
import FileIndexing.Rebuild.Registry
import FileIndexing.Rebuild.Request
import FileIndexing.Rehearsal.Bench
import FileIndexing.Rehearsal.Indexers
import FileIndexing.Rehearsal.Run
import FileIndexing.Rehearsal.Script
import FileIndexing.Rehearsal.Stage
import FileIndexing.Rehearsal.Step
import FileIndexing.Service.Batch
import FileIndexing.Service.Command
import FileIndexing.Service.Environment
import FileIndexing.Service.Errand
import FileIndexing.Service.Event
import FileIndexing.Service.Execute
import FileIndexing.Service.Filling
import FileIndexing.Service.Locks
import FileIndexing.Service.Rebuild
import FileIndexing.Service.State
import FileIndexing.Service.Workers
import FileIndexing.Store.LastWriter
import FileIndexing.Store.Memory
import FileIndexing.Text.Blank
import FileIndexing.Text.Quoted
import FileIndexing.Text.Unprintable
import FileIndexing.Text.Utf8
import FileIndexing.Timestamp
import FileIndexing.Update.Operation
import FileIndexing.Update.Outcome
import FileIndexing.Version
