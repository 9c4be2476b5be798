import EasyNetwork.Lib.Automaton
import EasyNetwork.Lib.Base64
import EasyNetwork.Lib.Bounded
import EasyNetwork.Lib.Coroutine
import EasyNetwork.Lib.Dict
import EasyNetwork.Lib.Encoding
import EasyNetwork.Lib.ExceptionTree
import EasyNetwork.Lib.Feeding
import EasyNetwork.Lib.Framing
import EasyNetwork.Lib.Gather
import EasyNetwork.Lib.MapM
import EasyNetwork.Lib.QueueLock
import EasyNetwork.Lib.Search
import EasyNetwork.Lib.Segments
import EasyNetwork.Lib.Table
import EasyNetwork.Lib.TextCodec
import EasyNetwork.Lib.Trans
import EasyNetwork.Lib.Utf8
import EasyNetwork.AbruptClose
import EasyNetwork.AddressOrder
import EasyNetwork.AncillaryReceive
import EasyNetwork.AncillarySend
import EasyNetwork.AsyncExecutor
import EasyNetwork.AsyncioTask
import EasyNetwork.Base64Encoder
import EasyNetwork.BaseServer
import EasyNetwork.BaseStream
import EasyNetwork.BufferedConsumer
import EasyNetwork.BufferedCuttings
import EasyNetwork.BufferedDelivery
import EasyNetwork.BufferedFramers
import EasyNetwork.BufferedProtocol
import EasyNetwork.CancelScope
import EasyNetwork.ClientContext
import EasyNetwork.ClientRestarts
import EasyNetwork.ClientSend
import EasyNetwork.ClientSendOrder
import EasyNetwork.ClientTasks
import EasyNetwork.ClientWakes
import EasyNetwork.Closing
import EasyNetwork.Compressor
import EasyNetwork.Connection
import EasyNetwork.DatagramEndpoint
import EasyNetwork.DatagramHandler
import EasyNetwork.DatagramListener
import EasyNetwork.DatagramServer
import EasyNetwork.DeferredConnect
import EasyNetwork.DeferredInit
import EasyNetwork.DeferredLeak
import EasyNetwork.Delivery
import EasyNetwork.Exceptions
import EasyNetwork.FairLock
import EasyNetwork.FairLocks
import EasyNetwork.FileBased
import EasyNetwork.FileBasedDelivery
import EasyNetwork.FileBasedReads
import EasyNetwork.FixedSize
import EasyNetwork.FlowControl
import EasyNetwork.FramedReceive
import EasyNetwork.HandlerContract
import EasyNetwork.HappyEyeballs
import EasyNetwork.HappyEyeballsRace
import EasyNetwork.Json
import EasyNetwork.JsonCuttings
import EasyNetwork.JsonDelivery
import EasyNetwork.JsonFrames
import EasyNetwork.JsonLines
import EasyNetwork.JsonParser
import EasyNetwork.JsonRemainder
import EasyNetwork.JsonText
import EasyNetwork.LeftoverBuffer
import EasyNetwork.ListenerProtocol
import EasyNetwork.MergedCancellation
import EasyNetwork.Overlong
import EasyNetwork.PacketsArrive
import EasyNetwork.Protocol
import EasyNetwork.RawTransport
import EasyNetwork.ReaderCalls
import EasyNetwork.RecvIterator
import EasyNetwork.RetryTimeouts
import EasyNetwork.Selector
import EasyNetwork.SendAll
import EasyNetwork.SendAllDelivery
import EasyNetwork.Separated
import EasyNetwork.SeparatedDelivery
import EasyNetwork.ServerClose
import EasyNetwork.ServerFrames
import EasyNetwork.ShieldedAwait
import EasyNetwork.ShieldedAwaitRuns
import EasyNetwork.ShieldedCoroutines
import EasyNetwork.SizeHint
import EasyNetwork.SocketAncillary
import EasyNetwork.StandaloneServer
import EasyNetwork.StandaloneServerEnds
import EasyNetwork.StandaloneServerRuns
import EasyNetwork.Stream
import EasyNetwork.StreamEndpoint
import EasyNetwork.StreamHandler
import EasyNetwork.StreamListener
import EasyNetwork.StreamListenerRuns
import EasyNetwork.StreamReceive
import EasyNetwork.StreamServer
import EasyNetwork.StreamServerRuns
import EasyNetwork.StringLine
import EasyNetwork.StructSerializer
import EasyNetwork.TcpServer
import EasyNetwork.Tls
import EasyNetwork.TlsOrder
import EasyNetwork.TlsWake
import EasyNetwork.Tools
import EasyNetwork.UdpListeners
import EasyNetwork.UdpServer
import EasyNetwork.UnixServer
import EasyNetwork.WriteFlow
import EasyNetwork.WriteFlowRest
import EasyNetwork.WriteFlowRuns
