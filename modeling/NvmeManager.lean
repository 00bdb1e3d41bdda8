import NvmeManager.Lib.Prog
import NvmeManager.Lib.Run
import NvmeManager.Lib.SteadyTimer
import NvmeManager.Lib.FlatMap
import NvmeManager.Lib.Firsts
import NvmeManager.Lib.Worklist
import NvmeManager.Lib.Search
import NvmeManager.Mi.Libnvme
import NvmeManager.Mi.Closure
import NvmeManager.Mi.Commands
import NvmeManager.Mi.Calls
import NvmeManager.Mi.Delivery
import NvmeManager.Mi.Reporting
import NvmeManager.Mi.Ports
import NvmeManager.Mi.Threads
import NvmeManager.Mi.Overlap
import NvmeManager.Mi.Security
import NvmeManager.Mi.Telemetry
import NvmeManager.Mi.Transfer
import NvmeManager.Worker.Machine
import NvmeManager.Worker.Lock
import NvmeManager.Worker.Wakeup
import NvmeManager.Worker.Order
import NvmeManager.Worker.Stop
import NvmeManager.Lib.Shared
import NvmeManager.Worker.Sharing
import NvmeManager.Mi.Refusal
import NvmeManager.Main.Discovery
import NvmeManager.Main.Dbus
import NvmeManager.Main.Inventory
import NvmeManager.Main.Placement
import NvmeManager.Main.Endpoints
import NvmeManager.Main.Extraction
import NvmeManager.Main.Objects
import NvmeManager.Main.Selection
import NvmeManager.Device.Interfaces
import NvmeManager.Device.View
import NvmeManager.Device.Drive
import NvmeManager.Device.Members
import NvmeManager.Device.Requests
import NvmeManager.Device.Status
import NvmeManager.Device.Faults
import NvmeManager.Device.Health
import NvmeManager.Device.Entries
import NvmeManager.Device.Failed
import NvmeManager.Device.Identify
import NvmeManager.System.Process
import NvmeManager.Device.Associations
import NvmeManager.System.Polling
import NvmeManager.System.Observed
import NvmeManager.System.Handles
import NvmeManager.System.Stale
import NvmeManager.System.Watch
import NvmeManager.System.Exchange
import NvmeManager.System.Sanitize
import NvmeManager.System.Exclusive
import NvmeManager.System.Consent
import NvmeManager.System.Pace
import NvmeManager.System.Progress
import NvmeManager.System.Estimate
import NvmeManager.System.Elapsed
import NvmeManager.System.Ended
import NvmeManager.System.Retry
import NvmeManager.Lib.Tagged
import NvmeManager.Lib.Layout
import NvmeManager.System.Member
import NvmeManager.System.Manager
import NvmeManager.System.Daemon
import NvmeManager.System.Threaded
import NvmeManager.System.Written
import NvmeManager.Device.Sources
import NvmeManager.System.Published
import NvmeManager.System.Ledger
import NvmeManager.System.Listed
import NvmeManager.System.Names
import NvmeManager.System.Failures
import NvmeManager.System.Settled
import NvmeManager.Device.Identity
import NvmeManager.System.Genuine
import NvmeManager.System.Reported
import NvmeManager.System.Workers
import NvmeManager.System.Erasure
