import GdRpc.Library.Transition
import GdRpc.Library.StreamQueue
import GdRpc.Net.BufferRefinement
import GdRpc.Net.GracefulShutdown
import GdRpc.Net.MessageOrder
import GdRpc.Net.Lifecycle
import GdRpc.Net.EventLoopTimers
import GdRpc.Net.OneAttempt
import GdRpc.Net.Wakeup
import GdRpc.Net.EventLoopThread
import GdRpc.Net.TcpServer
import GdRpc.Net.ConnectorDescriptors
import GdRpc.Net.ConnectorChannel
import GdRpc.Net.StopIsFinal
import GdRpc.Util.TimingWheelRefinement
import GdRpc.Rpc.ClusterCalls
import GdRpc.Rpc.RpcResponses
import GdRpc.Rpc.Correlation
import GdRpc.Rpc.EndpointCallbacks
import GdRpc.Rpc.Registry
import GdRpc.Rpc.ConcurrentAppend
import GdRpc.Rpc.Discovery
import GdRpc.Rpc.ChannelConnections
import GdRpc.Protocol.Framing
import GdRpc.Protocol.DecodeLoop
import GdRpc.Protocol.UniqueDecoding
import GdRpc.Util.AsyncLogConservation
import GdRpc.Util.AsyncLogStop
import GdRpc.Net.HalfCloseKept
import GdRpc.Net.ForceClose
import GdRpc.Net.ReadAll
import GdRpc.Net.PollerTable
import GdRpc.Net.PollerInterest
import GdRpc.Util.TimingWheelOnce
import GdRpc.Util.TimingWheelPeriod
import GdRpc.Util.TimingWheelTermination
import GdRpc.Util.LogFileNames
import GdRpc.Rpc.SequentialAppend
import GdRpc.Rpc.FailedAppend
import GdRpc.Net.BufferStorage
import GdRpc.Rpc.BoundedWeights
import GdRpc.Net.FlowControl
import GdRpc.Net.ConnectionLifetime
import GdRpc.Net.ServerLoops
import GdRpc.Util.TimingWheelClock
import GdRpc.Util.TimingWheelLate
import GdRpc.Protocol.JsonCodec
import GdRpc.Util.Timestamp
import GdRpc.Rpc.FrameOrder
import GdRpc.Rpc.GrowingShares
import GdRpc.Net.LastBatch
import GdRpc.Rpc.CallLedger
import GdRpc.Util.LogDirectory
import GdRpc.Example.Echo
import GdRpc.Net.RefusedAttempts
import GdRpc.Util.AsyncLogJoin
import GdRpc.Net.PollerRotation
import GdRpc.Net.TimersOnTime
