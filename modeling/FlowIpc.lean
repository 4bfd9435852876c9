import FlowIpc.Lib.Transition
import FlowIpc.Lib.Simulation
import FlowIpc.Found.ErrorCode
import FlowIpc.Negotiation.Negotiator
import FlowIpc.Channel.EndSending
import FlowIpc.Channel.InStep
import FlowIpc.Channel.JoinedClose
import FlowIpc.MqPeers.Cleanup
import FlowIpc.Negotiation.Agreement
import FlowIpc.Adapter.MqRcvCore
import FlowIpc.Adapter.Rcv
import FlowIpc.Adapter.RcvOrder
import FlowIpc.Adapter.CoreOps
import FlowIpc.Adapter.Link
import FlowIpc.MqStream.Fifo
import FlowIpc.Adapter.NonHosing
import FlowIpc.SocketStream.EndSending
import FlowIpc.SocketStream.Fifo
import FlowIpc.Adapter.MqSndCore
import FlowIpc.Adapter.MqLink
import FlowIpc.Adapter.SocketRcvCore
import FlowIpc.Adapter.SocketLink
import FlowIpc.Adapter.Snd
import FlowIpc.Adapter.SndEither
import FlowIpc.BlobSender.Cells
import FlowIpc.BlobSender.OfMq
import FlowIpc.BlobSender.OfSocket
import FlowIpc.BlobSender.Simulation
import FlowIpc.MqPeers.Construct
import FlowIpc.MqPeers.RemoveEach
import FlowIpc.SocketStream.Accesses
import FlowIpc.SocketStream.Directions
import FlowIpc.SocketStream.Framing
import FlowIpc.SocketStream.Hosing
import FlowIpc.SocketStream.RcvOnce
import FlowIpc.SocketStream.Progress
import FlowIpc.MqHandle.Backends
import FlowIpc.Acceptor.Acceptor
import FlowIpc.Acceptor.Serving
import FlowIpc.Acceptor.SyncIo
import FlowIpc.Lib.Handoff
import FlowIpc.MqStream.CtlCmd
import FlowIpc.MqStream.Exclusive
import FlowIpc.MqStream.Progress
import FlowIpc.Lib.Custody
import FlowIpc.PosixMq.AllOrNothing
import FlowIpc.PosixMq.Ledger
import FlowIpc.PosixMq.OpenOrCreate
import FlowIpc.MqHandle.Exchange
import FlowIpc.MqHandle.Deadline
import FlowIpc.MqHandle.BlockedDudes
import FlowIpc.AsioSocket.Write
import FlowIpc.AsioSocket.NbRead
import FlowIpc.AsioSocket.Read
import FlowIpc.Util.Sanitize
import FlowIpc.Timers.Idle
import FlowIpc.Timers.Resets
import FlowIpc.Timers.KeepAlive
import FlowIpc.SocketStream.Connect
import FlowIpc.Contract.ErrorOut
import FlowIpc.SocketStream.RcvSteps
import FlowIpc.SocketStream.HndlTarget
import FlowIpc.SocketStream.Receiving
import FlowIpc.SocketStream.Descriptors
