import Pybus.Interaction.Pool
import Pybus.Store
import Pybus.Transitions
import Pybus.StoreRuns
import Pybus.StoreInvariants
import Pybus.Calls
import Pybus.Listener
import Pybus.Runner
import Pybus.Ledger
import Pybus.Settlement
import Pybus.Batches
import Pybus.Delivery
import Pybus.Accounts
import Pybus.Listening
import Pybus.Deliveries
import Pybus.Guarantees
import Pybus.Cancellation
import Pybus.Recurrence
import Pybus.Custody
import Pybus.Workers
import Pybus.System
import Pybus.Series
import Pybus.SeriesRuns
import Pybus.SeriesSystem
import Pybus.RetryBudget
import Pybus.Exclusion
import Pybus.LateOutcomes
import Pybus.Redis.CrashSafety
import Pybus.Redis.Settlements
import Pybus.Restoration
import Pybus.Faults
import Pybus.TypedMessages
import Pybus.Survival
import Pybus.Copies
import Pybus.RetryState
import Pybus.Reaper
import Pybus.Redelivery
import Pybus.Failing
import Pybus.Cadence
import Pybus.Draining
import Pybus.Restarts
import Pybus.Release
import Pybus.Superseded
import Pybus.Sweeps
import Pybus.Redis.Unclaimed
import Pybus.Redis.Refinement
import Pybus.Exchange
import Pybus.LateResponses
import Pybus.Replies
import Pybus.OncePerDay
import Pybus.TaskCycles
import Pybus.Dictionary
import Pybus.PayloadTypes
import Pybus.Registration
import Pybus.Discovery
import Pybus.ZonedTimes
import Pybus.CronSlots
import Pybus.TaskRecords
import Pybus.Interaction.Traces
import Pybus.WorkerTraces
import Pybus.WorkerStops
import Pybus.ModelReferences
import Pybus.ModelCodec
import Pybus.CodecExtension
import Pybus.JsonTexts
import Pybus.Idempotency
import Pybus.ReapedDeliveries
import Pybus.ScheduledDeliveries
import Pybus.SettledCopies
