import SlurmScheduler.Pool.FinishedClients
import SlurmScheduler.Pool.Config
import SlurmScheduler.Pool.Isolation
import SlurmScheduler.Pool.Quarantine
import SlurmScheduler.Pool.Drains
import SlurmScheduler.Pool.Occupancy
import SlurmScheduler.Pool.Closing
import SlurmScheduler.Pool.Expiry
import SlurmScheduler.Pool.Commands
import SlurmScheduler.Pool.CloseOrders
import SlurmScheduler.Pool.Grants
import SlurmScheduler.Pool.ProjectNames
import SlurmScheduler.Pool.Hosts
import SlurmScheduler.Pool.Starts
import SlurmScheduler.Concurrent.Process
import SlurmScheduler.Concurrent.Discipline
import SlurmScheduler.Dispatch.Schema
import SlurmScheduler.Concurrent.Solo
import SlurmScheduler.Dispatch.Licenses
import SlurmScheduler.Dispatch.Writes
import SlurmScheduler.Dispatch.Allocations
import SlurmScheduler.Dispatch.Effects
import SlurmScheduler.Dispatch.FailedClose
import SlurmScheduler.Dispatch.Tasks
import SlurmScheduler.Dispatch.Attach
import SlurmScheduler.Dispatch.Submission
import SlurmScheduler.Dispatch.Program
import SlurmScheduler.Concurrent.Triples
import SlurmScheduler.Dispatch.Footprint
import SlurmScheduler.Dispatch.Keeping
import SlurmScheduler.Dispatch.Compliance
import SlurmScheduler.Dispatch.Pieces
import SlurmScheduler.Dispatch.Lifecycle
import SlurmScheduler.Dispatch.Attempts
import SlurmScheduler.Dispatch.ConfirmedStops
import SlurmScheduler.Concurrent.Federation
import SlurmScheduler.Dispatch.Density
import SlurmScheduler.Concurrent.Interleaving
import SlurmScheduler.Concurrent.Founded
import SlurmScheduler.Dispatch.DedupeKeys
import SlurmScheduler.Dispatch.Cancellations
import SlurmScheduler.Dispatch.StorageLedger
import SlurmScheduler.Dispatch.SlurmTruth
import SlurmScheduler.Dispatch.Refresh
import SlurmScheduler.Dispatch.FairQueue
import SlurmScheduler.Dispatch.Pressure
import SlurmScheduler.Capacity.Spread
import SlurmScheduler.Client.Lease
import SlurmScheduler.Client.SolvePermit
import SlurmScheduler.Concurrent.Exceptions
import SlurmScheduler.Pool.Refusals
import SlurmScheduler.Host.Memory
import SlurmScheduler.Host.Desktop
import SlurmScheduler.Host.Run
import SlurmScheduler.Host.Pieces
import SlurmScheduler.Host.Automation
import SlurmScheduler.Host.Closing
import SlurmScheduler.Pool.Endings
import SlurmScheduler.Cleanup.Workspaces
import SlurmScheduler.Cleanup.Worker
import SlurmScheduler.Cleanup.Exclusion
import SlurmScheduler.Http.Octets
import SlurmScheduler.Http.Reading
import SlurmScheduler.Http.Plain
import SlurmScheduler.Relay.Handler
import SlurmScheduler.Relay.Checks
import SlurmScheduler.Relay.Smuggling
import SlurmScheduler.Relay.Chunks
import SlurmScheduler.Relay.Stages
import SlurmScheduler.Pool.Placements
import SlurmScheduler.Pool.Heartbeats
import SlurmScheduler.Pool.PendingPins
import SlurmScheduler.Capacity.Sessions
import SlurmScheduler.Capacity.Reservations
import SlurmScheduler.Lock.Calls
import SlurmScheduler.Web.Coalescing
import SlurmScheduler.Web.TaskReads
import SlurmScheduler.Pool.OperatorPatches
import SlurmScheduler.Host.DsoContract
import SlurmScheduler.EnvSync.Backups
import SlurmScheduler.EnvSync.AllOrNothing
import SlurmScheduler.Retention.Sealed
import SlurmScheduler.Retention.MarkerPaths
import SlurmScheduler.ProjectEnv.Trees
import SlurmScheduler.Attach.ScriptPath
import SlurmScheduler.Demand.Plans
import SlurmScheduler.Demand.CodeFit
import SlurmScheduler.Demand.Replay
import SlurmScheduler.Packed.Submissions
import SlurmScheduler.Slurm.TaskProbes
import SlurmScheduler.Artifacts.Records
