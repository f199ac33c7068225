import Courier.Adapter
import Courier.AttemptLog
import Courier.Breaker
import Courier.Config
import Courier.Dispatcher
import Courier.Engine.Assembly
import Courier.Engine.Basic
import Courier.Engine.Perform
import Courier.Engine.Schedule
import Courier.Engine.Script
import Courier.Engine.Service
import Courier.Engine.Surroundings
import Courier.Error
import Courier.Event
import Courier.Http.MediaType
import Courier.Http.Service
import Courier.Http.Target
import Courier.Ident
import Courier.Inbox
import Courier.Job.Basic
import Courier.Job.Codec
import Courier.Json.Basic
import Courier.Json.Number
import Courier.Json.Reader
import Courier.Json.Reading
import Courier.Json.Writer
import Courier.Limiter
import Courier.Liveness
import Courier.Main
import Courier.Number.FloatText
import Courier.Number.Quantity
import Courier.Number.Shortest
import Courier.Outcome.Basic
import Courier.Outcome.Codec
import Courier.Pacing
import Courier.Plan
import Courier.Proofs.AttemptLog
import Courier.Proofs.Breaker.Closing
import Courier.Proofs.Breaker.Feed
import Courier.Proofs.Breaker.History
import Courier.Proofs.Breaker.Trial
import Courier.Proofs.Deadline
import Courier.Proofs.Engine.Effect
import Courier.Proofs.Engine.Kept
import Courier.Proofs.Engine.Steady
import Courier.Proofs.Fleet.Basic
import Courier.Proofs.Fleet.Calls
import Courier.Proofs.Fleet.Chronicle
import Courier.Proofs.Fleet.Delivery
import Courier.Proofs.Fleet.Envelopes
import Courier.Proofs.Fleet.FinalFailure
import Courier.Proofs.Fleet.Guard
import Courier.Proofs.Fleet.Journal
import Courier.Proofs.Fleet.Loops
import Courier.Proofs.Fleet.Onward
import Courier.Proofs.Fleet.Redelivery
import Courier.Proofs.Fleet.Schedule
import Courier.Proofs.Fleet.Turn
import Courier.Proofs.Http.Effect
import Courier.Proofs.Inbox.Custody
import Courier.Proofs.Inbox.Fate
import Courier.Proofs.Inbox.Oldest
import Courier.Proofs.Inbox.Run
import Courier.Proofs.Isolation
import Courier.Proofs.Job.Codec
import Courier.Proofs.Json.Members
import Courier.Proofs.Json.Record
import Courier.Proofs.Limiter.Run
import Courier.Proofs.Limiter.Settle
import Courier.Proofs.Limiter.Waiting
import Courier.Proofs.Number.Exact
import Courier.Proofs.Number.Float
import Courier.Proofs.Number.Quantity
import Courier.Proofs.Pacing
import Courier.Proofs.Pacing.Bounds
import Courier.Proofs.Queue.Attempts
import Courier.Proofs.Queue.Conservation
import Courier.Proofs.Queue.Fate
import Courier.Proofs.Queue.Identity
import Courier.Proofs.Queue.Lineage
import Courier.Proofs.Queue.Replay
import Courier.Proofs.Queue.Reuse
import Courier.Proofs.Queue.Run
import Courier.Proofs.Queue.Selection
import Courier.Proofs.Queue.Tenure
import Courier.Proofs.Queue.WellFormed
import Courier.Proofs.Refusal
import Courier.Proofs.Retry
import Courier.Proofs.Server.Blank
import Courier.Proofs.Solo.Delivery
import Courier.Proofs.Solo.Passage
import Courier.Proofs.Solo.Process
import Courier.Proofs.Solo.Retry
import Courier.Proofs.Solo.Room
import Courier.Proofs.Solo.Separate
import Courier.Proofs.Supervisor
import Courier.Proofs.Text.Decimal
import Courier.Proofs.Text.Split
import Courier.Proofs.Throttle
import Courier.Proofs.Time.Calendar
import Courier.Proofs.Time.Rfc3339
import Courier.Proofs.Time.Saturation
import Courier.Queue.Basic
import Courier.Queue.DeadLetter
import Courier.Retry
import Courier.Server.Address
import Courier.Server.CommandLine
import Courier.Server.Config
import Courier.Server.EnvFile
import Courier.Server.Files
import Courier.Server.Launch
import Courier.Server.Loading
import Courier.Supervisor
import Courier.Table
import Courier.Text.Blank
import Courier.Text.Decimal
import Courier.Text.Diagnostic
import Courier.Text.Invisible
import Courier.Text.Letter
import Courier.Time.Basic
import Courier.Time.Calendar
import Courier.Time.Rfc3339
import Courier.Toml.Quoted
import Courier.Toml.Reader
import Courier.Toml.Scalar
import Courier.Toml.Tree
import Courier.Worker.Cycle
import Courier.Worker.Process
