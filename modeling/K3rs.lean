import K3rs.Lib.Bytes
import K3rs.Lib.OnesComplement
import K3rs.Lib.Effects
import K3rs.Lib.Transition
import K3rs.Lib.Leases
import K3rs.Lib.Tables
import K3rs.Lib.Crash
import K3rs.Lib.Grants
import K3rs.Lib.IpText
import K3rs.Vpc.GhostIpv6
import K3rs.Ebpf.Context
import K3rs.Ebpf.Isolation
import K3rs.Ebpf.Translate
import K3rs.Ebpf.Handover
import K3rs.Ebpf.Packets
import K3rs.Ebpf.RoundTrip
import K3rs.Ebpf.Nat64
import K3rs.Ebpf.L4Checksum
import K3rs.Ebpf.Nat64RoundTrip
import K3rs.Ebpf.Decisions
import K3rs.Ebpf.AllOrNothing
import K3rs.Ebpf.PacketLengths
import K3rs.Ebpf.UdpChecksum
import K3rs.Vpc.Store
import K3rs.Vpc.Allocator
import K3rs.Vpc.AddressLeases
import K3rs.Vpc.Enforcer
import K3rs.Vpc.Sync
import K3rs.Vpc.PeeringSync
import K3rs.Vpc.Restart
import K3rs.Lib.Broadcast
import K3rs.Server.EventLog
import K3rs.Server.Watch
import K3rs.Server.LeaderElection
import K3rs.Server.VpcRegistry
import K3rs.Server.VpcIdentity
import K3rs.Lib.IpRoundTrip
import K3rs.Vpc.Cidr
import K3rs.Vpc.PoolSync
import K3rs.Vpc.Containment
import K3rs.Vpc.Durability
import K3rs.Network.Dns
import K3rs.Vpc.Socket
import K3rs.Vpc.Reachability
import K3rs.Vpc.Attachments
import K3rs.Lib.KeyValue
import K3rs.Server.StateStore
import K3rs.Lib.Json
import K3rs.Lib.Programs
import K3rs.Server.Backup
import K3rs.Server.RestoreGuard
import K3rs.Cluster.Objects
import K3rs.Cluster.TemplateHash
import K3rs.Cluster.Deployments
import K3rs.Cluster.ReplicaSets
import K3rs.Cluster.Truncation
import K3rs.Cluster.Autoscaler
import K3rs.Cluster.SpecWrites
import K3rs.Cluster.Deletion
import K3rs.Cluster.Nodes
import K3rs.Cluster.Cordon
import K3rs.Cluster.Revisions
import K3rs.Agent.Recovery
import K3rs.Cluster.Scheduler
import K3rs.Lib.RelyGuarantee
import K3rs.Lib.LonePrograms
import K3rs.Lib.Totals
import K3rs.Cluster.Jobs
import K3rs.Cluster.DaemonSets
import K3rs.Cluster.Pods
import K3rs.Cluster.PodTasks
import K3rs.Cluster.PodStates
import K3rs.Cluster.TerminatingVpcs
import K3rs.Cluster.Capacity
import K3rs.Cluster.JobInvariant
import K3rs.Cluster.JobRuns
import K3rs.Cluster.Rollouts
import K3rs.Cluster.Convergence
import K3rs.Lib.Binary64
import K3rs.Cluster.Canary
import K3rs.Cluster.ReplicaPasses
import K3rs.Cluster.SelfHealing
import K3rs.Cluster.ControllerRuns
import K3rs.Cluster.Recreate
import K3rs.Cluster.Availability
import K3rs.Lib.LastWins
import K3rs.Lib.Words
import K3rs.Lib.Utf8
import K3rs.Network.Services
import K3rs.Network.ServiceProxy
import K3rs.Network.DnsIsolation
import K3rs.Agent.Store
import K3rs.Agent.RouteSync
import K3rs.Agent.Backends
import K3rs.Agent.PodSync
import K3rs.Agent.Releases
import K3rs.Vm.BootParams
import K3rs.Vm.Exec
import K3rs.Network.MacSwitch
import K3rs.Network.Endpoints
import K3rs.Vpc.WireGuard
import K3rs.Vm.Firecracker
import K3rs.Lib.Joins
import K3rs.Server.RegistryKeys
import K3rs.Container.ImageCache
import K3rs.Ctl.ProcessManager
import K3rs.Lib.FileTree
import K3rs.Container.Rootfs
import K3rs.Container.Confinement
import K3rs.Container.Layering
import K3rs.Cluster.DaemonPasses
import K3rs.Cluster.Placement
import K3rs.Server.Overlap
import K3rs.Vpc.AllocationSearch
import K3rs.Cluster.ScaleBounds
import K3rs.Cluster.ReplicaCounts
import K3rs.Cluster.CronJobs
import K3rs.Ebpf.HeaderChecksum
import K3rs.Ebpf.ChecksumDeltas
import K3rs.Cluster.RoundRobin
import K3rs.Lib.WriteLogs
import K3rs.Cluster.CronPacing
import K3rs.Vm.Ipv6Text
import K3rs.Lib.CheckedReads
import K3rs.Vm.Dhcp
import K3rs.Network.DnsMessages
import K3rs.Lib.Environ
import K3rs.Container.Environment
import K3rs.Network.PodNetwork
import K3rs.Lib.Lines
import K3rs.Lib.JsonRecords
import K3rs.Lib.JsonPrefix
import K3rs.Vpc.Protocol
import K3rs.Vpc.Connections
import K3rs.Vpc.Retries
import K3rs.Lib.Incremental
import K3rs.Vm.FirecrackerApi
import K3rs.Vm.DhcpExchange
import K3rs.Vm.DhcpGuest
import K3rs.Server.LeaderGate
