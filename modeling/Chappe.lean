import Chappe.Foundation.Cancel
import Chappe.Foundation.Coding
import Chappe.Foundation.Queue
import Chappe.Foundation.Run
import Chappe.Construction.Broker
import Chappe.Construction.BufferTrace
import Chappe.Construction.Cache
import Chappe.Construction.ClientStream
import Chappe.Construction.Daemon
import Chappe.Construction.Fleet
import Chappe.Construction.FrameFeed
import Chappe.Construction.FrameTopic
import Chappe.Construction.Kv
import Chappe.Construction.Link
import Chappe.Construction.LinkPair
import Chappe.Construction.Network
import Chappe.Construction.NodeReader
import Chappe.Construction.Outage
import Chappe.Construction.PythonNode
import Chappe.Construction.PythonRequests
import Chappe.Construction.Reclaim
import Chappe.Construction.RedisBridge
import Chappe.Construction.Relay
import Chappe.Construction.Requests
import Chappe.Construction.RingLayout
import Chappe.Construction.RingNames
import Chappe.Construction.RingWrite
import Chappe.Construction.Segment
import Chappe.Construction.SlotViews
import Chappe.Construction.Subscription
import Chappe.Construction.ThreadPool
import Chappe.Construction.Transport
import Chappe.Proof.Bridge.Relaying
import Chappe.Proof.Broker.RetainedAgreement
import Chappe.Proof.Broker.RetainedRace
import Chappe.Proof.Daemon.Indices
import Chappe.Proof.Daemon.ReplySizes
import Chappe.Proof.Kv.CacheCoherence
import Chappe.Proof.Kv.KeyLocality
import Chappe.Proof.Kv.Outboxes
import Chappe.Proof.Kv.TimedRefinement
import Chappe.Proof.Link.Carrying
import Chappe.Proof.Link.Changes
import Chappe.Proof.Link.Confinement
import Chappe.Proof.Link.Convergence
import Chappe.Proof.Link.Crossing
import Chappe.Proof.Link.EchoAccounting
import Chappe.Proof.Link.OwnerKey
import Chappe.Proof.Link.OwnerSessions
import Chappe.Proof.Link.Replay
import Chappe.Proof.Network.Delivery
import Chappe.Proof.Network.OneMatcher
import Chappe.Proof.Python.Parity
import Chappe.Proof.Python.Pending
import Chappe.Proof.Python.Unregistering
import Chappe.Proof.Requests.Answers
import Chappe.Proof.Requests.Calls
import Chappe.Proof.Requests.Outage
import Chappe.Proof.Requests.Promises
import Chappe.Proof.Requests.Settlement
import Chappe.Proof.Segment.AttachConsistency
import Chappe.Proof.Segment.FollowedProducer
import Chappe.Proof.Segment.OneProducer
import Chappe.Proof.Segment.RingLayout
import Chappe.Proof.Segment.RingNames
import Chappe.Proof.ShmRing.FailedWrite
import Chappe.Proof.ShmRing.Freshness
import Chappe.Proof.ShmRing.HoldSafety
import Chappe.Proof.ShmRing.Overtaking
import Chappe.Proof.ShmRing.Progression
import Chappe.Proof.ShmRing.ReclaimSafety
import Chappe.Proof.ShmRing.SlotViews
import Chappe.Proof.ShmRing.Starvation
import Chappe.Proof.Subscription.Agreement
import Chappe.Proof.Subscription.ReconnectRace
import Chappe.Proof.Sync.Attending
import Chappe.Proof.Sync.Barrier
import Chappe.Proof.Sync.Holding
import Chappe.Proof.ThreadPool.Conservation
import Chappe.Proof.ThreadPool.Drain
import Chappe.Proof.Transport.BufferDiscipline
import Chappe.Proof.Transport.ClientStream
import Chappe.Proof.Transport.Framing
import Chappe.Construction.Mesh
import Chappe.Foundation.Route
import Chappe.Proof.Mesh.Delivery
import Chappe.Proof.Mesh.Forest
import Chappe.Construction.CacheHistory
import Chappe.Construction.Server
import Chappe.Proof.Kv.Cuts
import Chappe.Proof.Kv.MonotonicReads
import Chappe.Proof.Server.Admission
import Chappe.Proof.Server.LockOrder
import Chappe.Proof.Server.Races
import Chappe.Proof.Server.Shutdown
import Chappe.Proof.Server.Writes
import Chappe.Construction.ServerHistory
import Chappe.Proof.Server.Answering
import Chappe.Proof.Server.Entitlement
import Chappe.Construction.NodeCalls
import Chappe.Proof.Kv.Leases
import Chappe.Proof.Server.Counting
import Chappe.Proof.Kv.Meaning
import Chappe.Proof.Requests.Backoff
