import FaucetNetworking.SendBufferRefinement
import FaucetNetworking.Base64RoundTrip
import FaucetNetworking.Tcp.SendStream
import FaucetNetworking.Tcp.ReceiveStream
import FaucetNetworking.Tcp.Lifecycle
import FaucetNetworking.Tcp.Abort
import FaucetNetworking.Tcp.Shutdown
import FaucetNetworking.Tcp.Attachment
import FaucetNetworking.Tcp.LinkProgress
import FaucetNetworking.Lib.PrefixCode
import FaucetNetworking.Lib.Program
import FaucetNetworking.Tcp.Exchange
import FaucetNetworking.Tcp.ClosedError
import FaucetNetworking.Scripts.SocketCalls
import FaucetNetworking.Scripts.Conversation
import FaucetNetworking.Scripts.Rules
import FaucetNetworking.Tcp.ConnectFallback
import FaucetNetworking.Tcp.CombinedAcceptor
import FaucetNetworking.Udp.EndpointFallback
import FaucetNetworking.Udp.ReceivePipeline
import FaucetNetworking.HandleMap
import FaucetNetworking.HexRoundTrip
import FaucetNetworking.MessageRoundTrip
import FaucetNetworking.ReadIndependence
import FaucetNetworking.ScriptReads
import FaucetNetworking.BufferCopy
import FaucetNetworking.ChunkedWrites
import FaucetNetworking.ReadPosition
import FaucetNetworking.ReachedObjects
import FaucetNetworking.Base64Prediction
import FaucetNetworking.DualStack
import FaucetNetworking.NearestValue
import FaucetNetworking.NearestFloat
import FaucetNetworking.EncoderOutput
import FaucetNetworking.BitFunctions
import FaucetNetworking.LookupResults
import FaucetNetworking.Scripts.PongUpdates
import FaucetNetworking.Scripts.Nettest
import FaucetNetworking.Udp.Network
import FaucetNetworking.Udp.SendInterleaving
import FaucetNetworking.Api.DefaultSocket
import FaucetNetworking.Api.ObjectRuns
import FaucetNetworking.Api.Atomicity
