import Utp.Foundation.Checked
import Utp.Foundation.Bytes
import Utp.Foundation.OrderedMap
import Utp.Foundation.Rekey
import Utp.Foundation.RelatedMaps
import Utp.Foundation.Shift
import Utp.Foundation.Transition
import Utp.Foundation.Possibility
import Utp.Foundation.Unwinding
import Utp.Foundation.InOrder
import Utp.Foundation.Climb
import Utp.Foundation.Iteration
import Utp.Foundation.Frontier
import Utp.Foundation.SelectiveRepeat
import Utp.Wire.Basic
import Utp.Wire.BitIterator
import Utp.Wire.Packet
import Utp.Wire.Extensions
import Utp.Wire.Chain
import Utp.Wire.PacketLaws
import Utp.Wire.Grammar
import Utp.Wire.GetSack
import Utp.Wire.Edits
import Utp.Socket.State
import Utp.Socket.HandlePacket
import Utp.Socket.SelectiveAck
import Utp.Socket.DataArm
import Utp.Socket.AckArm
import Utp.Socket.PacketRun
import Utp.Socket.Calls
import Utp.Socket.LifeCycle
import Utp.Socket.Reassembly
import Utp.Socket.Blocked
import Utp.Socket.Renumber
import Utp.Socket.Closing
import Utp.Socket.Connect
import Utp.Socket.SendPackets
import Utp.Socket.SynAcked
import Utp.Socket.WriteWindow
import Utp.Socket.NoPanic
import Utp.Socket.FastRetransmit
import Utp.Socket.Receive
import Utp.Socket.ReplyDelay
import Utp.Socket.BuiltPackets
import Utp.Transport.OneWay
import Utp.Transport.Refinement
import Utp.Transport.Delivery
import Utp.Transport.Losses
import Utp.Transport.Stall
import Utp.Socket.ReceiveLoop
import Utp.Socket.Turn
import Utp.Socket.StaleBytes
import Utp.Socket.ReplyTrip
import Utp.Socket.SackWindow
import Utp.Stream.Read
import Utp.Stream.Write
import Utp.Transport.Numbering
import Utp.Transport.EarlyWrites
import Utp.Transport.AckMark
import Utp.Transport.Directions
import Utp.Transport.Opening
import Utp.Transport.Core
import Utp.Transport.EndToEnd
import Utp.Transport.Transfer
import Utp.Transport.Fifo
import Utp.Transport.WrapAround
import Utp.Transport.Host
import Utp.Transport.Demultiplex
import Utp.Transport.World
import Utp.Transport.WayBack
