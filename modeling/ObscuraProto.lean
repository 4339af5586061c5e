import ObscuraProto.SecureChannel
import ObscuraProto.HandshakeAgreement
import ObscuraProto.IdentityReachability
import ObscuraProto.WsClient.Events
import ObscuraProto.OpcodeAgreement
import ObscuraProto.Library.Threads
import ObscuraProto.WsServer.Steps
import ObscuraProto.ServerSends
import ObscuraProto.Library.OneShot
import ObscuraProto.RequestLifecycle
import ObscuraProto.HonestHandshake
import ObscuraProto.WsServer.Counting
import ObscuraProto.ServerTables
import ObscuraProto.ConnectionLimits
import ObscuraProto.Library.Registry
import ObscuraProto.Streams
import ObscuraProto.WsClient.Moves
import ObscuraProto.WsClient.Streams
import ObscuraProto.WsServer.Streams
import ObscuraProto.StreamLifecycle
import ObscuraProto.WsServer.Traces
import ObscuraProto.WsServer.Pool
import ObscuraProto.NamespaceSeparation
import ObscuraProto.WsServer.Requests
import ObscuraProto.WsClient.Pool
import ObscuraProto.WsClient.Requests
import ObscuraProto.PromiseLifecycle
import ObscuraProto.FifoLink
import ObscuraProto.HandshakeFailures
import ObscuraProto.Library.Brackets
import ObscuraProto.LifecycleCallbacks
import ObscuraProto.StreamStartFailures
import ObscuraProto.Library.RateWindow
import ObscuraProto.WsServer.Touches
import ObscuraProto.WsServer.RateWindows
import ObscuraProto.ConnectionRate
import ObscuraProto.HandshakeRate
import ObscuraProto.ConnectionFrame
import ObscuraProto.Library.Numbering
import ObscuraProto.WsServer.LimiterIds
import ObscuraProto.DisabledTimeouts
import ObscuraProto.EarlyStreamData
import ObscuraProto.Library.Monitors
import ObscuraProto.WatchdogWakeups
import ObscuraProto.Library.Locks
import ObscuraProto.WsServer.Locking
import ObscuraProto.WsServer.LockOrder
import ObscuraProto.WsClient.Locking
import ObscuraProto.CallbackLocks
import ObscuraProto.Library.Owners
import ObscuraProto.StrandedRequests
import ObscuraProto.ByteOrder
import ObscuraProto.Library.Framing
import ObscuraProto.ParamGrammar
import ObscuraProto.Envelope
import ObscuraProto.HandshakeCodec
import ObscuraProto.Library.Tokens
import ObscuraProto.TokenBuckets
import ObscuraProto.Library.Expiry
import ObscuraProto.RequestExpiry
import ObscuraProto.SlidingWindows
import ObscuraProto.ThrowingCallbacks
import ObscuraProto.MalformedPayloads
import ObscuraProto.SizeLimits
import ObscuraProto.ClientSends
import ObscuraProto.Reconnect
import ObscuraProto.ReaderExhaustion
import ObscuraProto.ConfigFile
import ObscuraProto.ConfigOverrides
import ObscuraProto.ConfigValues
import ObscuraProto.NetworkAttack
import ObscuraProto.HelloReplays
import ObscuraProto.WsServer.Arrivals
import ObscuraProto.ExchangedKeys
import ObscuraProto.PayloadAuthenticity
import ObscuraProto.Library.Milestones
import ObscuraProto.WsServer.Bystanders
import ObscuraProto.WsServer.IdentityRecords
import ObscuraProto.WsServer.RequestOwners
import ObscuraProto.NoResidue
import ObscuraProto.Library.Dialogue
import ObscuraProto.Library.Draws
import ObscuraProto.EndToEnd.Words
import ObscuraProto.EndToEnd.ClientEnd
import ObscuraProto.EndToEnd.ServerEnd
import ObscuraProto.EndToEnd.Elsewhere
import ObscuraProto.EndToEnd.Ends
import ObscuraProto.EndToEnd.ClientActs
import ObscuraProto.EndToEnd.ServerActs
import ObscuraProto.EndToEnd.Link
import ObscuraProto.EndToEnd.Connecting
import ObscuraProto.EndToEnd.Refinement
import ObscuraProto.EndToEnd.Runs
import ObscuraProto.EndToEnd.Requests
import ObscuraProto.EndToEnd.Streams
import ObscuraProto.BufferValues
