import VirtioForwarder.Relay.Conservation
import VirtioForwarder.Relay.QueueDelivery
import VirtioForwarder.Relay.FlowOrder
import VirtioForwarder.Relay.QueueTags
import VirtioForwarder.Relay.Channels
import VirtioForwarder.Worker.Locks
import VirtioForwarder.Worker.Progress
import VirtioForwarder.Worker.Stopping
import VirtioForwarder.Control.Handshake
import VirtioForwarder.Control.Connect.Runs
import VirtioForwarder.Control.Lifecycle.Runs
import VirtioForwarder.Control.Orphans
import VirtioForwarder.Control.Pools.Lifetime
import VirtioForwarder.Control.RoundRobin
import VirtioForwarder.Control.Attach
import VirtioForwarder.Control.Detach
import VirtioForwarder.Control.RoundTrip
import VirtioForwarder.Sockets.Operations
import VirtioForwarder.Sockets.Pairing
import VirtioForwarder.Sockets.OneToOne
import VirtioForwarder.Inputs.CommandLine
import VirtioForwarder.Inputs.PciAddress
import VirtioForwarder.Service.Server
import VirtioForwarder.Service.ServerLifecycle
import VirtioForwarder.Service.PortControl
import VirtioForwarder.Sockets.DefaultSockets
import VirtioForwarder.Service.Idempotence
import VirtioForwarder.Service.Shutdown
import VirtioForwarder.Service.PidFile
import VirtioForwarder.Inputs.Tables
import VirtioForwarder.Service.CoreSched
import VirtioForwarder.Inputs.RelayNumbers
import VirtioForwarder.Sockets.Callbacks
import VirtioForwarder.Control.Migration.Windows
import VirtioForwarder.Control.Migration.Removal
import VirtioForwarder.Control.Migration.Runs
import VirtioForwarder.Ovsdb.Parser
import VirtioForwarder.Ovsdb.Client
import VirtioForwarder.Ovsdb.Rows
import VirtioForwarder.Ovsdb.Monitor
import VirtioForwarder.Ovsdb.Tracking
import VirtioForwarder.Service.CpuMigration
import VirtioForwarder.Library.Python
import VirtioForwarder.Inputs.CorePinner
import VirtioForwarder.Service.RequestBuffers
import VirtioForwarder.Service.SocketRemoval
import VirtioForwarder.Control.HandBack
import VirtioForwarder.Control.BondRollback
import VirtioForwarder.Inputs.LoadBalancer
import VirtioForwarder.Control.IdlestWorker
import VirtioForwarder.Control.FairPolling
import VirtioForwarder.Relay.QueueTable
import VirtioForwarder.Relay.HeaderHash
import VirtioForwarder.Ovsdb.MapReads
import VirtioForwarder.Ovsdb.Reads
import VirtioForwarder.Ovsdb.OpenValues
import VirtioForwarder.Ovsdb.Isolation
import VirtioForwarder.Inputs.OptionParser
import VirtioForwarder.Control.PortTable
import VirtioForwarder.Control.PortRollback
import VirtioForwarder.Sockets.FailedAdd
import VirtioForwarder.Inputs.LoadSpread
import VirtioForwarder.Ovsdb.Quoting
import VirtioForwarder.Inputs.EalArguments
import VirtioForwarder.Inputs.WorkerCpus
import VirtioForwarder.Inputs.Startup
import VirtioForwarder.Sockets.SocketNames
import VirtioForwarder.Inputs.FileMonitor
import VirtioForwarder.Library.CLayout
import VirtioForwarder.Service.ResponseSizes
import VirtioForwarder.Library.TimedStop
import VirtioForwarder.Ovsdb.MonitorThread
import VirtioForwarder.Service.PortClient
